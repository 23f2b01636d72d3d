import ScalpingBot.Risk.Grid
import ScalpingBot.Scenario.Plan

/-! The coverage of the fees by a target, `evaluateCommissionCoverage`, `minimumFeeBufferedTarget`
    and `validateCommandFeeBuffer` of packages/risk-engine/src/commission.ts: a lower entry and a
    larger volume cover them too. -/

namespace ScalpingBot.Risk

open Scenario (isTickAligned)
open Significant (truncate)

/-- The argument of `evaluateCommissionCoverage`. -/
structure CoverageInput where
  side : OrderSide
  entryPrice : Decimal
  takeProfit : Decimal
  volume : Decimal
  minimumExpectedNetToFeesRatio : Decimal
  metadata : SymbolMetadata

/-- `CommissionCoverageEvidence`. -/
structure CoverageEvidence where
  side : OrderSide
  entryPrice : Decimal
  takeProfit : Decimal
  volume : Decimal
  pipSize : Decimal
  takeProfitPips : Decimal
  grossProfit : Decimal
  openingCommission : Decimal
  closingCommission : Decimal
  pnlConversionFee : Decimal
  totalEstimatedFees : Decimal
  minimumExpectedNetToFeesRatio : Decimal
  requiredMinimumNetProfit : Decimal
  expectedNetProfit : Decimal
  expectedNetToFeesRatio : Option Decimal
  deriving DecidableEq

structure CoverageResult where
  approved : Bool
  reasonCodes : List String
  evidence : Option CoverageEvidence
  deriving DecidableEq

/-- The body of `evaluateCommissionCoverage`. -/
def coverageEvidence (input : CoverageInput) : Except String CoverageEvidence := do
  let entry ← decimal input.entryPrice
  let target ← decimal input.takeProfit
  let volume ← decimal input.volume
  let ratio ← decimal input.minimumExpectedNetToFeesRatio "COMMISSION_NET_FEE_RATIO_INVALID"
  let tickSize ← decimal input.metadata.tickSize "COMMISSION_TICK_SIZE_INVALID"
  let pipSize ← decimal input.metadata.pipSize "COMMISSION_PIP_SIZE_INVALID"
  let tickValue ← decimal input.metadata.tickValue "COMMISSION_TICK_VALUE_INVALID"
  require (1 ≤ ratio) "COMMISSION_NET_FEE_RATIO_INVALID"
  require (0 < tickSize ∧ 0 < pipSize ∧ 0 < tickValue ∧ (pipSize.div tickSize).isInteger ∧
    isTickAligned entry tickSize ∧ isTickAligned target tickSize ∧
    (input.side = .buy → entry < target) ∧ (input.side = .sell → target < entry))
    "COMMISSION_PRICE_GEOMETRY_INVALID"
  let distance : Decimal := |target.minus entry|
  let takeProfitPips := distance.div pipSize
  require (takeProfitPips.isInteger ∧ 1 ≤ takeProfitPips) "COMMISSION_TAKE_PROFIT_PIPS_INVALID"
  let gross := ((distance.div tickSize).times tickValue).times volume
  let openingCommission ← oneWayCommission input.metadata entry volume
  let closingCommission ← oneWayCommission input.metadata target volume
  let feeRate ← decimal input.metadata.commission.pnlConversionFeeRate
    "COMMISSION_PNL_CONVERSION_FEE_INVALID"
  let conversionFee := (gross.times feeRate).div 100
  let totalFees := (openingCommission.plus closingCommission).plus conversionFee
  let expectedNet := gross.minus totalFees
  return {
    side := input.side
    entryPrice := input.entryPrice
    takeProfit := input.takeProfit
    volume := input.volume
    pipSize := pipSize
    takeProfitPips := takeProfitPips
    grossProfit := gross
    openingCommission := openingCommission
    closingCommission := closingCommission
    pnlConversionFee := conversionFee
    totalEstimatedFees := totalFees
    minimumExpectedNetToFeesRatio := ratio
    requiredMinimumNetProfit := totalFees.times ratio
    expectedNetProfit := expectedNet
    expectedNetToFeesRatio := if totalFees = 0 then none else some (expectedNet.div totalFees) }

def evaluateCommissionCoverage (input : CoverageInput) : CoverageResult :=
  match coverageEvidence input with
  | .ok evidence =>
    if evidence.requiredMinimumNetProfit < evidence.expectedNetProfit then
      { approved := true, reasonCodes := [], evidence := some evidence }
    else
      { approved := false
        reasonCodes := [input.side.text ++ "_TAKE_PROFIT_DOES_NOT_MEET_NET_FEE_BUFFER"]
        evidence := some evidence }
  | .error reason => { approved := false, reasonCodes := [reason], evidence := none }

structure BufferedTargetInput where
  side : OrderSide
  entryPrice : Decimal
  volume : Decimal
  minimumTakeProfitDistance : Option Decimal := none
  maximumTakeProfitDistance : Decimal
  minimumExpectedNetToFeesRatio : Decimal
  metadata : SymbolMetadata

/-- The question that the search asks of a target. -/
def BufferedTargetInput.coverage (input : BufferedTargetInput) (target : Decimal) :
    CoverageInput :=
  ⟨input.side, input.entryPrice, target, input.volume, input.minimumExpectedNetToFeesRatio,
    input.metadata⟩

/-- The target at a number of pips. -/
def BufferedTargetInput.target (input : BufferedTargetInput) (pipCount : ℕ) : Decimal :=
  let distance := input.metadata.pipSize.times pipCount
  match input.side with
  | .buy => input.entryPrice.plus distance
  | .sell => input.entryPrice.minus distance

/-- The loop of `minimumFeeBufferedTarget` over the whole pips that are left. -/
def bufferedTargetLoop (input : BufferedTargetInput) : List ℕ → CoverageResult
  | [] => ⟨false, [input.side.text ++ "_FEE_BUFFERED_TP_UNAVAILABLE"], none⟩
  | pipCount :: rest =>
    if input.target pipCount ≤ 0 then
      ⟨false, [input.side.text ++ "_FEE_BUFFERED_TP_UNAVAILABLE"], none⟩
    else
      let result := evaluateCommissionCoverage (input.coverage (input.target pipCount))
      if result.approved then
        result
      else if result.evidence = none ∨
          result.reasonCodes.any fun reason =>
            !reason.endsWith "TAKE_PROFIT_DOES_NOT_MEET_NET_FEE_BUFFER" then
        result
      else
        bufferedTargetLoop input rest

/-- The range of the search, in whole pips. -/
def bufferedTargetPips (input : BufferedTargetInput) : Except String (List ℕ) := do
  let _entry ← decimal input.entryPrice
  let pipSize ← decimal input.metadata.pipSize
  let minimumDistance ← match input.minimumTakeProfitDistance with
    | none => pure pipSize
    | some minimum => (max pipSize ·) <$> decimal minimum
  let maximumDistance ← decimal input.maximumTakeProfitDistance
  require (minimumDistance ≤ maximumDistance) "FEE_BUFFERED_TP_UNAVAILABLE"
  let minimumPips := ⌈minimumDistance.div pipSize⌉₊
  let maximumPips := ⌊maximumDistance.div pipSize⌋₊
  require (pipSize ≠ 0 ∧ maximumPips ≤ 1000000) "COMMISSION_TP_SEARCH_RANGE_INVALID"
  return List.range' minimumPips (maximumPips + 1 - minimumPips)

def minimumFeeBufferedTarget (input : BufferedTargetInput) : CoverageResult :=
  match bufferedTargetPips input with
  | .ok pips => bufferedTargetLoop input pips
  | .error reason => ⟨false, [reason], none⟩

structure FeeBufferResult where
  approved : Bool
  reasonCodes : List String
  evidence : List CoverageEvidence
  deriving DecidableEq

def validateCommandFeeBuffer (commands : List PendingOrderCommand) (metadata : SymbolMetadata)
    (minimumExpectedNetToFeesRatio : Decimal) : FeeBufferResult :=
  if commands.length ≠ 1 ∧ commands.length ≠ 2 then
    { approved := false, reasonCodes := ["FEE_COMMAND_COUNT_INVALID"], evidence := [] }
  else
    let results := commands.map fun command => evaluateCommissionCoverage
      ⟨command.side, command.entryPrice, command.takeProfit, command.volume,
        minimumExpectedNetToFeesRatio, metadata⟩
    { approved := results.all CoverageResult.approved
      reasonCodes := (results.flatMap CoverageResult.reasonCodes).eraseDups.mergeSort (· ≤ ·)
      evidence := results.filterMap CoverageResult.evidence }

/-! ### Without rounding -/

/-- What `oneWayCommission` computes one after the other, without rounding. -/
def commissionSteps (metadata : SymbolMetadata) (price volume : Decimal) : List Decimal :=
  [price * volume, price * volume * metadata.volumeScale,
    price * volume * metadata.volumeScale * metadata.commission.rate,
    price * volume * metadata.volumeScale * metadata.commission.rate / 1000000,
    price * volume * metadata.volumeScale * metadata.commission.rate / 1000000 *
      metadata.quoteToAccountConversionRate]

/-- The commission of a price and a volume, for a minimum, without rounding. -/
def exactCommission (metadata : SymbolMetadata) (minimum price volume : Decimal) : Decimal :=
  max (price * volume * metadata.volumeScale * metadata.commission.rate / 1000000 *
    metadata.quoteToAccountConversionRate) minimum

namespace CoverageInput

variable (input : CoverageInput)

def exactGross : Decimal :=
  |input.takeProfit - input.entryPrice| / input.metadata.tickSize * input.metadata.tickValue *
    input.volume

def exactFees (minimum : Decimal) : Decimal :=
  exactCommission input.metadata minimum input.entryPrice input.volume +
    exactCommission input.metadata minimum input.takeProfit input.volume +
    input.exactGross * input.metadata.commission.pnlConversionFeeRate / 100

/-- What `evaluateCommissionCoverage` computes up to its decision, without rounding. -/
def steps (minimum : Decimal) : List Decimal :=
  commissionSteps input.metadata input.entryPrice input.volume ++
  commissionSteps input.metadata input.takeProfit input.volume ++
  [|input.takeProfit - input.entryPrice| / input.metadata.tickSize,
    |input.takeProfit - input.entryPrice| / input.metadata.tickSize * input.metadata.tickValue,
    input.exactGross, input.exactGross * input.metadata.commission.pnlConversionFeeRate,
    input.exactGross * input.metadata.commission.pnlConversionFeeRate / 100,
    exactCommission input.metadata minimum input.entryPrice input.volume +
      exactCommission input.metadata minimum input.takeProfit input.volume,
    input.exactFees minimum, input.exactGross - input.exactFees minimum,
    input.exactFees minimum * input.minimumExpectedNetToFeesRatio]

/-- No result of the evaluation needs more than forty digits. -/
def Unrounded : Prop :=
  ∀ minimum, minimumCommissionInAccountCurrency input.metadata = .ok minimum →
    ∀ step ∈ input.steps minimum, truncate Decimal.precision step = step

end CoverageInput

/-! ### The exact decision -/

/-- What `oneWayCommission` checks of a symbol. -/
structure CommissionChecked (metadata : SymbolMetadata) : Prop where
  type : metadata.commission.type = .usdPerMillionUsd
  quote : metadata.quoteAsset = "USD"
  scale : isDecimalText metadata.volumeScale ∧ 0 < metadata.volumeScale
  conversion : isDecimalText metadata.quoteToAccountConversionRate ∧
    0 < metadata.quoteToAccountConversionRate
  rate : isDecimalText metadata.commission.rate

theorem minimumCommission_nonneg {metadata : SymbolMetadata} {minimum : Decimal}
    (h : minimumCommissionInAccountCurrency metadata = .ok minimum) : 0 ≤ minimum := by
  simp only [minimumCommissionInAccountCurrency, bind_ok, decimal_ok] at h
  obtain ⟨_, ⟨rfl, htext⟩, h⟩ := h
  have hnonneg := (text_bounds htext).1
  split at h
  · rw [pure_ok] at h
    exact h ▸ hnonneg
  · split at h
    · simp only [bind_ok, decimal_ok, pure_ok] at h
      obtain ⟨_, ⟨rfl, hrate⟩, rfl⟩ := h
      exact nonneg_times hnonneg (text_bounds hrate).1
    · split at h
      · rw [pure_ok] at h
        exact h ▸ hnonneg
      · cases h

theorem oneWayCommission_exact {metadata : SymbolMetadata} {minimum price volume r : Decimal}
    (hminimum : minimumCommissionInAccountCurrency metadata = .ok minimum)
    (hexact : ∀ step ∈ commissionSteps metadata price volume,
      truncate Decimal.precision step = step) :
    oneWayCommission metadata price volume = .ok r ↔ CommissionChecked metadata ∧ 0 < price ∧
      0 < volume ∧ r = exactCommission metadata minimum price volume := by
  simp only [commissionSteps, List.forall_mem_cons] at hexact
  obtain ⟨hnotional, hscaled, hrated, hmillion, hconverted, -⟩ := hexact
  have hrate : ((((price.times volume).times metadata.volumeScale).times
      metadata.commission.rate).div 1000000).times metadata.quoteToAccountConversionRate =
      price * volume * metadata.volumeScale * metadata.commission.rate / 1000000 *
        metadata.quoteToAccountConversionRate := by
    simp only [Decimal.times, Decimal.div, hnotional, hscaled, hrated, hmillion, hconverted]
  simp only [oneWayCommission, bind_ok, decimal_ok, require_ok, pure_ok, exactCommission]
  constructor
  · rintro ⟨_, htype, _, hquote, _, ⟨rfl, hscale⟩, _, ⟨rfl, hconversion⟩, _, ⟨rfl, hchecked⟩, _,
      ⟨hprice, hvolume, hscalePos, hconversionPos, -⟩, _, hmin, rfl⟩
    rw [hminimum, Except.ok.injEq] at hmin
    exact ⟨⟨htype, hquote, ⟨hscale, hscalePos⟩, ⟨hconversion, hconversionPos⟩, hchecked⟩, hprice,
      hvolume, by rw [hrate, hmin]⟩
  · rintro ⟨hc, hprice, hvolume, rfl⟩
    exact ⟨(), hc.type, (), hc.quote, _, ⟨rfl, hc.scale.1⟩, _, ⟨rfl, hc.conversion.1⟩, _,
      ⟨rfl, hc.rate⟩, (), ⟨hprice, hvolume, hc.scale.2, hc.conversion.2, (text_bounds hc.rate).1⟩,
      _, hminimum, by rw [hrate]⟩

theorem oneWayCommission_minimum {metadata : SymbolMetadata} {price volume r : Decimal}
    (h : oneWayCommission metadata price volume = .ok r) :
    ∃ minimum, minimumCommissionInAccountCurrency metadata = .ok minimum := by
  simp only [oneWayCommission, bind_ok, decimal_ok, require_ok, pure_ok] at h
  obtain ⟨_, -, _, -, _, -, _, -, _, -, _, -, minimum, hminimum, -⟩ := h
  exact ⟨minimum, hminimum⟩

namespace CoverageInput

variable (input : CoverageInput)

/-- What `evaluateCommissionCoverage` checks before it decides. -/
structure Checked : Prop where
  entry : isDecimalText input.entryPrice
  target : isDecimalText input.takeProfit
  volume : isDecimalText input.volume
  ratio : isDecimalText input.minimumExpectedNetToFeesRatio ∧
    1 ≤ input.minimumExpectedNetToFeesRatio
  tickSize : isDecimalText input.metadata.tickSize ∧ 0 < input.metadata.tickSize
  pipSize : isDecimalText input.metadata.pipSize ∧ 0 < input.metadata.pipSize ∧
    (input.metadata.pipSize.div input.metadata.tickSize).isInteger
  tickValue : isDecimalText input.metadata.tickValue ∧ 0 < input.metadata.tickValue
  fee : isDecimalText input.metadata.commission.pnlConversionFeeRate
  aligned : isTickAligned input.entryPrice input.metadata.tickSize ∧
    isTickAligned input.takeProfit input.metadata.tickSize
  sides : (input.side = .buy → input.entryPrice < input.takeProfit) ∧
    (input.side = .sell → input.takeProfit < input.entryPrice)
  pips : (|input.takeProfit - input.entryPrice|.div input.metadata.pipSize).isInteger ∧
    1 ≤ |input.takeProfit - input.entryPrice|.div input.metadata.pipSize

theorem approved_iff : (evaluateCommissionCoverage input).approved ↔ ∃ evidence,
    coverageEvidence input = .ok evidence ∧
      evidence.requiredMinimumNetProfit < evidence.expectedNetProfit := by
  rw [evaluateCommissionCoverage]
  cases coverageEvidence input with
  | error reason => simp
  | ok evidence =>
    simp only [Except.ok.injEq, exists_eq_left']
    split <;> simp [*]

/-- Without rounding the evidence carries the exact amounts. -/
theorem amounts_exact {minimum : Decimal}
    (hsteps : ∀ step ∈ input.steps minimum, truncate Decimal.precision step = step)
    (htarget : isDecimalText input.takeProfit) (hentry : isDecimalText input.entryPrice) :
    (((|input.takeProfit.minus input.entryPrice| : Decimal).div input.metadata.tickSize).times
      input.metadata.tickValue).times input.volume = input.exactGross ∧
    ((exactCommission input.metadata minimum input.entryPrice input.volume).plus
      (exactCommission input.metadata minimum input.takeProfit input.volume)).plus
      ((input.exactGross.times input.metadata.commission.pnlConversionFeeRate).div 100) =
        input.exactFees minimum ∧
    input.exactGross.minus (input.exactFees minimum) =
      input.exactGross - input.exactFees minimum ∧
    (input.exactFees minimum).times input.minimumExpectedNetToFeesRatio =
      input.exactFees minimum * input.minimumExpectedNetToFeesRatio := by
  simp only [steps, List.forall_mem_append, List.forall_mem_cons] at hsteps
  obtain ⟨-, hticks, hperUnit, hgross, hcharged, hconversion, hboth, hfees, hnet, hrequired, -⟩ :=
    hsteps
  refine ⟨?_, ?_, hnet, hrequired⟩
  · rw [minus_texts htarget hentry, Decimal.div, hticks, Decimal.times, Decimal.times, hperUnit]
    exact hgross
  · rw [Decimal.times, hcharged, Decimal.div, hconversion, Decimal.plus, Decimal.plus, hboth]
    exact hfees

/-- Without rounding a target is approved if its gross profit exceeds the fees and the required
    multiple of them. -/
theorem approved_exact (hexact : input.Unrounded) : (evaluateCommissionCoverage input).approved ↔
    ∃ minimum, minimumCommissionInAccountCurrency input.metadata = .ok minimum ∧
      input.Checked ∧ CommissionChecked input.metadata ∧ 0 < input.entryPrice ∧
      0 < input.takeProfit ∧ 0 < input.volume ∧
      input.exactFees minimum * input.minimumExpectedNetToFeesRatio <
        input.exactGross - input.exactFees minimum := by
  rw [approved_iff]
  constructor
  · rintro ⟨evidence, hevidence, hlt⟩
    simp only [coverageEvidence, bind_ok, decimal_ok, require_ok, pure_ok] at hevidence
    obtain ⟨_, ⟨rfl, hentry⟩, _, ⟨rfl, htarget⟩, _, ⟨rfl, hvolume⟩, _, ⟨rfl, hratio⟩, _,
      ⟨rfl, htick⟩, _, ⟨rfl, hpip⟩, _, ⟨rfl, hvalue⟩, _, hone, _,
      ⟨htickPos, hpipPos, hvaluePos, hwhole, halignedEntry, halignedTarget, hbuy, hsell⟩, _,
      ⟨hpips, hpipsOne⟩, opening, hopening, closing, hclosing, _, ⟨rfl, hfee⟩, rfl⟩ := hevidence
    obtain ⟨minimum, hminimum⟩ := oneWayCommission_minimum hopening
    have hsteps := hexact minimum hminimum
    have hall := hsteps
    simp only [steps, List.forall_mem_append] at hall
    obtain ⟨⟨hstepsEntry, hstepsTarget⟩, -⟩ := hall
    obtain ⟨hchecked, hentryPos, hvolumePos, rfl⟩ :=
      (oneWayCommission_exact hminimum hstepsEntry).mp hopening
    obtain ⟨-, htargetPos, -, rfl⟩ := (oneWayCommission_exact hminimum hstepsTarget).mp hclosing
    obtain ⟨hgross, hfees, hnet, hrequired⟩ := input.amounts_exact hsteps htarget hentry
    rw [hgross, hfees, hnet, hrequired] at hlt
    rw [minus_texts htarget hentry] at hpips hpipsOne
    exact ⟨minimum, hminimum, ⟨hentry, htarget, hvolume, ⟨hratio, hone⟩, ⟨htick, htickPos⟩,
      ⟨hpip, hpipPos, hwhole⟩, ⟨hvalue, hvaluePos⟩, hfee, ⟨halignedEntry, halignedTarget⟩,
      ⟨hbuy, hsell⟩, ⟨hpips, hpipsOne⟩⟩, hchecked, hentryPos, htargetPos, hvolumePos, hlt⟩
  · rintro ⟨minimum, hminimum, hc, hchecked, hentryPos, htargetPos, hvolumePos, hlt⟩
    have hsteps := hexact minimum hminimum
    have hall := hsteps
    simp only [steps, List.forall_mem_append] at hall
    obtain ⟨⟨hstepsEntry, hstepsTarget⟩, -⟩ := hall
    have hopening := (oneWayCommission_exact hminimum hstepsEntry).mpr
      ⟨hchecked, hentryPos, hvolumePos, rfl⟩
    have hclosing := (oneWayCommission_exact hminimum hstepsTarget).mpr
      ⟨hchecked, htargetPos, hvolumePos, rfl⟩
    obtain ⟨hgross, hfees, hnet, hrequired⟩ := input.amounts_exact hsteps hc.target hc.entry
    have hpips := hc.pips
    rw [← minus_texts hc.target hc.entry] at hpips
    simp only [coverageEvidence, bind_ok, decimal_ok, require_ok, pure_ok]
    refine ⟨_, ⟨_, ⟨rfl, hc.entry⟩, _, ⟨rfl, hc.target⟩, _, ⟨rfl, hc.volume⟩, _,
      ⟨rfl, hc.ratio.1⟩, _, ⟨rfl, hc.tickSize.1⟩, _, ⟨rfl, hc.pipSize.1⟩, _,
      ⟨rfl, hc.tickValue.1⟩, (), hc.ratio.2, (), ⟨hc.tickSize.2, hc.pipSize.2.1, hc.tickValue.2,
      hc.pipSize.2.2, hc.aligned.1, hc.aligned.2, hc.sides.1, hc.sides.2⟩, (), hpips, _, hopening,
      _, hclosing, _, ⟨rfl, hc.fee⟩, rfl⟩, ?_⟩
    rw [hgross, hfees, hnet, hrequired]
    exact hlt

end CoverageInput

/-! ### A lower entry and a larger volume -/

theorem exactCommission_nonneg {metadata : SymbolMetadata} {minimum : ℚ} (hminimum : 0 ≤ minimum)
    (price volume : ℚ) : 0 ≤ exactCommission metadata minimum price volume :=
  le_max_of_le_right hminimum

/-- Where the notional grows by no more than a factor, so does the commission. -/
theorem exactCommission_scale {metadata : SymbolMetadata}
    {minimum price price' volume volume' factor : ℚ} (hc : CommissionChecked metadata)
    (hminimum : 0 ≤ minimum) (hfactor : 1 ≤ factor)
    (h : price' * volume' ≤ factor * (price * volume)) :
    exactCommission metadata minimum price' volume' ≤
      factor * exactCommission metadata minimum price volume := by
  have hcost : 0 ≤ metadata.volumeScale * metadata.commission.rate / 1000000 *
      metadata.quoteToAccountConversionRate := by
    have hrate := (text_bounds hc.rate).1
    have hscale := hc.scale.2
    have hconversion := hc.conversion.2
    positivity
  have hnonneg := zero_le_one.trans hfactor
  refine max_le ?_ ?_
  · calc price' * volume' * metadata.volumeScale * metadata.commission.rate / 1000000 *
          metadata.quoteToAccountConversionRate
        = price' * volume' * (metadata.volumeScale * metadata.commission.rate / 1000000 *
            metadata.quoteToAccountConversionRate) := by ring
      _ ≤ factor * (price * volume) * (metadata.volumeScale * metadata.commission.rate / 1000000 *
            metadata.quoteToAccountConversionRate) := mul_le_mul_of_nonneg_right h hcost
      _ = factor * (price * volume * metadata.volumeScale * metadata.commission.rate /
            1000000 * metadata.quoteToAccountConversionRate) := by ring
      _ ≤ factor * exactCommission metadata minimum price volume :=
          mul_le_mul_of_nonneg_left (le_max_left _ _) hnonneg
  · calc minimum ≤ factor * minimum := le_mul_of_one_le_left hminimum hfactor
      _ ≤ factor * exactCommission metadata minimum price volume :=
          mul_le_mul_of_nonneg_left (le_max_right _ _) hnonneg

namespace CoverageInput

variable {input : CoverageInput}

/-- The same distance on the same side, from another entry and for another volume. -/
def moved (input : CoverageInput) (entry volume : Decimal) : CoverageInput :=
  { input with
    entryPrice := entry
    takeProfit := entry + (input.takeProfit - input.entryPrice)
    volume := volume }

theorem moved_distance (entry volume : Decimal) :
    (input.moved entry volume).takeProfit - (input.moved entry volume).entryPrice =
      input.takeProfit - input.entryPrice := by
  simp only [moved]
  ring

theorem exactGross_moved (hvolume : 0 < input.volume) (entry volume : Decimal) :
    (input.moved entry volume).exactGross = volume / input.volume * input.exactGross := by
  rw [exactGross, exactGross, moved_distance]
  simp only [moved]
  field_simp

theorem exactFees_moved {minimum entry volume : Decimal}
    (hchecked : CommissionChecked input.metadata) (hminimum : 0 ≤ minimum)
    (hvolume : 0 < input.volume) (hentry : entry ≤ input.entryPrice)
    (hle : input.volume ≤ volume) : (input.moved entry volume).exactFees minimum ≤
      volume / input.volume * input.exactFees minimum := by
  have hlower {price price' : ℚ} (hprice : price' ≤ price) : exactCommission input.metadata minimum
      price' volume ≤ volume / input.volume *
        exactCommission input.metadata minimum price input.volume := by
    refine exactCommission_scale hchecked hminimum ((one_le_div hvolume).mpr hle) ?_
    calc price' * volume ≤ price * volume :=
          mul_le_mul_of_nonneg_right hprice (hvolume.le.trans hle)
      _ = volume / input.volume * (price * input.volume) := by field_simp
  have hopening := hlower hentry
  have htarget : entry + (input.takeProfit - input.entryPrice) ≤ input.takeProfit := by linarith
  have hclosing := hlower htarget
  rw [exactFees, exactGross_moved hvolume, exactFees, mul_add, mul_add]
  refine add_le_add (add_le_add hopening hclosing) (le_of_eq ?_)
  simp only [moved]
  ring

/-- A multiple of the tick below a text is a text. -/
theorem text_of_aligned {bound value tick : Decimal} (hbound : isDecimalText bound)
    (htick : isDecimalText tick) (hnonneg : 0 ≤ value) (hle : value ≤ bound)
    (h : isTickAligned value tick) : isDecimalText value := by
  obtain ⟨hpos, n, rfl⟩ := Scenario.isTickAligned_iff.mp h
  obtain ⟨b, hb, rfl⟩ := isDecimalText_iff.mp hbound
  obtain ⟨t, -, rfl⟩ := isDecimalText_iff.mp htick
  have hn : 0 ≤ n := by
    have := nonneg_of_mul_nonneg_left hnonneg hpos
    exact_mod_cast this
  obtain ⟨k, rfl⟩ := Int.eq_ofNat_of_zero_le hn
  have hunits : ((k : ℤ) * (t / 10 ^ 10) : ℚ) = ((k * t : ℕ) : ℚ) / 10 ^ 10 := by
    push_cast
    ring
  refine isDecimalText_iff.mpr ⟨k * t, ?_, hunits⟩
  rw [hunits] at hle
  have hcast : ((k * t : ℕ) : ℚ) ≤ b := (div_le_div_iff_of_pos_right (by norm_num)).mp hle
  have hkt : k * t ≤ b := by exact_mod_cast hcast
  omega

/-- The checks hold of the moved target too. -/
theorem Checked.moved (hc : input.Checked) {entry volume : Decimal} (hentry : 0 < entry)
    (htarget : 0 < (input.moved entry volume).takeProfit) (hle : entry ≤ input.entryPrice)
    (haligned : isTickAligned entry input.metadata.tickSize) (hvolume : isDecimalText volume) :
    (input.moved entry volume).Checked := by
  have halignedTarget : isTickAligned (entry + (input.takeProfit - input.entryPrice))
      input.metadata.tickSize := by
    obtain ⟨hpos, n, hn⟩ := Scenario.isTickAligned_iff.mp haligned
    obtain ⟨-, a, ha⟩ := Scenario.isTickAligned_iff.mp hc.aligned.1
    obtain ⟨-, b, hb⟩ := Scenario.isTickAligned_iff.mp hc.aligned.2
    refine Scenario.isTickAligned_iff.mpr ⟨hpos, n + (b - a), ?_⟩
    rw [hn, ha, hb]
    push_cast
    ring
  have htargetLe : entry + (input.takeProfit - input.entryPrice) ≤ input.takeProfit := by linarith
  exact {
    entry := text_of_aligned hc.entry hc.tickSize.1 hentry.le hle haligned
    target := text_of_aligned hc.target hc.tickSize.1 htarget.le htargetLe halignedTarget
    volume := hvolume
    ratio := hc.ratio
    tickSize := hc.tickSize
    pipSize := hc.pipSize
    tickValue := hc.tickValue
    fee := hc.fee
    aligned := ⟨haligned, halignedTarget⟩
    sides := by
      refine ⟨fun hside => ?_, fun hside => ?_⟩
      · have := hc.sides.1 hside
        exact lt_add_of_pos_right _ (sub_pos.mpr this)
      · have := hc.sides.2 hside
        exact add_lt_of_neg_right _ (sub_neg.mpr this)
    pips := by
      rw [moved_distance]
      exact hc.pips }

/-- A lower entry and a larger volume at the same distance cover their fees. -/
theorem approved_moved (hexact : input.Unrounded) {entry volume : Decimal}
    (hexact' : (input.moved entry volume).Unrounded) (hentry : 0 < entry)
    (htarget : 0 < (input.moved entry volume).takeProfit) (hle : entry ≤ input.entryPrice)
    (haligned : isTickAligned entry input.metadata.tickSize) (hvolume : isDecimalText volume)
    (hvolumeLe : input.volume ≤ volume) (h : (evaluateCommissionCoverage input).approved) :
    (evaluateCommissionCoverage (input.moved entry volume)).approved := by
  obtain ⟨minimum, hminimum, hc, hchecked, -, -, hvolumePos, hlt⟩ :=
    (input.approved_exact hexact).mp h
  refine ((input.moved entry volume).approved_exact hexact').mpr ⟨minimum, hminimum,
    hc.moved hentry htarget hle haligned hvolume, hchecked, hentry, htarget,
    hvolumePos.trans_le hvolumeLe, ?_⟩
  have hfees := exactFees_moved hchecked (minimumCommission_nonneg hminimum) hvolumePos hle
    hvolumeLe
  have hratio : 0 ≤ input.minimumExpectedNetToFeesRatio := zero_le_one.trans hc.ratio.2
  have hfactor : 0 < volume / input.volume := div_pos (hvolumePos.trans_le hvolumeLe) hvolumePos
  have hscaled := mul_lt_mul_of_pos_left hlt hfactor
  have hrequired := mul_le_mul_of_nonneg_right hfees hratio
  rw [exactGross_moved hvolumePos]
  have hsame : (input.moved entry volume).minimumExpectedNetToFeesRatio =
    input.minimumExpectedNetToFeesRatio := rfl
  rw [hsame]
  calc (input.moved entry volume).exactFees minimum * input.minimumExpectedNetToFeesRatio
      ≤ volume / input.volume * input.exactFees minimum * input.minimumExpectedNetToFeesRatio :=
        hrequired
    _ = volume / input.volume *
          (input.exactFees minimum * input.minimumExpectedNetToFeesRatio) := by ring
    _ < volume / input.volume * (input.exactGross - input.exactFees minimum) := hscaled
    _ = volume / input.volume * input.exactGross - volume / input.volume *
          input.exactFees minimum := by ring
    _ ≤ volume / input.volume * input.exactGross - (input.moved entry volume).exactFees minimum :=
        sub_le_sub_left hfees _

end CoverageInput

/-! ### The search and the final check -/

theorem bufferedTargetLoop_approved {search : BufferedTargetInput} {pips : List ℕ}
    (h : (bufferedTargetLoop search pips).approved) :
    ∃ target,
      bufferedTargetLoop search pips = evaluateCommissionCoverage (search.coverage target) := by
  induction pips with
  | nil => cases h
  | cons pipCount rest ih =>
    rw [bufferedTargetLoop] at h ⊢
    simp only at h ⊢
    split at h
    · cases h
    · next hpositive =>
      rw [if_neg hpositive]
      split at h
      · next happroved => exact ⟨_, if_pos happroved⟩
      · next happroved =>
        rw [if_neg happroved]
        split at h
        · exact absurd h happroved
        · next hstop =>
          rw [if_neg hstop]
          exact ih h

/-- A found target is one that `evaluateCommissionCoverage` approves. -/
theorem minimumFeeBufferedTarget_approved {search : BufferedTargetInput}
    (h : (minimumFeeBufferedTarget search).approved) : ∃ target,
      minimumFeeBufferedTarget search = evaluateCommissionCoverage (search.coverage target) := by
  rw [minimumFeeBufferedTarget] at h ⊢
  cases hpips : bufferedTargetPips search with
  | error reason =>
    rw [hpips] at h
    cases h
  | ok pips =>
    rw [hpips] at h
    exact bufferedTargetLoop_approved h

/-- The evidence names the target that was asked about. -/
theorem evaluate_takeProfit {input : CoverageInput} {evidence : CoverageEvidence}
    (h : (evaluateCommissionCoverage input).evidence = some evidence) :
    evidence.takeProfit = input.takeProfit := by
  have hok : coverageEvidence input = .ok evidence := by
    rw [evaluateCommissionCoverage] at h
    cases hevidence : coverageEvidence input with
    | error reason =>
      rw [hevidence] at h
      cases h
    | ok found =>
      rw [hevidence] at h
      simp only at h
      split at h <;> exact congrArg Except.ok (Option.some.inj h)
  simp only [coverageEvidence, bind_ok, pure_ok] at hok
  obtain ⟨_, -, target, htarget, _, -, _, -, _, -, _, -, _, -, _, -, _, -, _, -, _, -, _, -, _, -,
    rfl⟩ := hok
  rfl

/-- A command on the side and at the distance of an evaluated one: at a lower entry on the grid, for
    a larger volume. -/
structure Lowered (input : CoverageInput) (entry volume : Decimal) : Prop where
  entryLower : 0 < entry ∧ entry ≤ input.entryPrice
  aligned : isTickAligned entry input.metadata.tickSize
  target : 0 < (input.moved entry volume).takeProfit
  volumeLarger : isDecimalText volume ∧ input.volume ≤ volume

/-- A target for a command, as the search finds it at a higher entry and a smaller volume. -/
structure Searched (metadata : SymbolMetadata) (ratio : Decimal) (command : PendingOrderCommand)
    (search : BufferedTargetInput) (evidence : CoverageEvidence) : Prop where
  asked : search.side = command.side ∧ search.metadata = metadata ∧
    search.minimumExpectedNetToFeesRatio = ratio
  approved : (minimumFeeBufferedTarget search).approved
  found : (minimumFeeBufferedTarget search).evidence = some evidence
  lowered : Lowered (search.coverage evidence.takeProfit) command.entryPrice command.volume
  target : command.takeProfit = ((search.coverage evidence.takeProfit).moved command.entryPrice
    command.volume).takeProfit
  exact : (search.coverage evidence.takeProfit).Unrounded ∧
    ((search.coverage evidence.takeProfit).moved command.entryPrice command.volume).Unrounded

/-- A lower entry and a larger volume at the same distance cover their fees as well, as long as
    nothing is rounded: so does a command that is sized after the search for its target. -/
theorem lowered_covered :
    (∀ (input : CoverageInput) (entry volume : Decimal), input.Unrounded →
      (input.moved entry volume).Unrounded → Lowered input entry volume →
      (evaluateCommissionCoverage input).approved →
      (evaluateCommissionCoverage (input.moved entry volume)).approved) ∧
    ∀ (commands : List PendingOrderCommand) (metadata : SymbolMetadata) (ratio : Decimal),
      commands.length = 1 ∨ commands.length = 2 →
      (∀ command ∈ commands, ∃ search evidence, Searched metadata ratio command search evidence) →
      (validateCommandFeeBuffer commands metadata ratio).approved := by
  have hmono (input : CoverageInput) (entry volume : Decimal) (hexact : input.Unrounded)
      (hexact' : (input.moved entry volume).Unrounded) (hl : Lowered input entry volume)
      (h : (evaluateCommissionCoverage input).approved) :
      (evaluateCommissionCoverage (input.moved entry volume)).approved :=
    CoverageInput.approved_moved hexact hexact' hl.entryLower.1 hl.target hl.entryLower.2
      hl.aligned hl.volumeLarger.1 hl.volumeLarger.2 h
  refine ⟨hmono, fun commands metadata ratio hlength hcommands => ?_⟩
  rw [validateCommandFeeBuffer, if_neg (by omega)]
  simp only [List.all_map, List.all_eq_true, Function.comp_apply]
  intro command hcommand
  obtain ⟨search, evidence, hs⟩ := hcommands command hcommand
  obtain ⟨target, hsearch⟩ := minimumFeeBufferedTarget_approved hs.approved
  have hfound := hs.found
  rw [hsearch] at hfound
  have htarget : evidence.takeProfit = target := evaluate_takeProfit hfound
  have happroved := hs.approved
  rw [hsearch, ← htarget] at happroved
  have hmoved := hmono _ _ _ hs.exact.1 hs.exact.2 hs.lowered happroved
  obtain ⟨hside, rfl, rfl⟩ := hs.asked
  have hcommandEq : (search.coverage evidence.takeProfit).moved command.entryPrice command.volume =
      ⟨command.side, command.entryPrice, command.takeProfit, command.volume,
        search.minimumExpectedNetToFeesRatio, search.metadata⟩ := by
    rw [hs.target, ← hside]
    rfl
  rwa [hcommandEq] at hmoved

namespace CoverageSample

/-- A command for three lots half a dollar below the entry of the search. -/
def command : PendingOrderCommand where
  idempotencyKey := "key"
  analysisId := "analysis"
  orderGroupId := "group"
  clientOrderId := "client"
  symbol := "XAUUSD"
  side := .buy
  volume := 3
  entryPrice := 3999 / 2
  stopLoss := 1998
  takeProfit := 3999 / 2 + 3 / 10
  expiresAt := some 0
  strategyLabel := "scalp"

def search : BufferedTargetInput := ⟨.buy, 2000, 1, none, 2, 1, GridSample.metadata⟩

/-- The target that the search finds. -/
def input : CoverageInput := search.coverage (2000 + 3 / 10)

/-- A volume so fine that the fees of it lose digits. -/
def fine : CoverageInput where
  side := .buy
  entryPrice := 1999
  takeProfit := 2001
  volume := 9234567890123456 + 1234567891 / 10 ^ 10
  minimumExpectedNetToFeesRatio := 1
  metadata :=
    { GridSample.metadata with
      pipSize := 1
      tickSize := 1
      tickValue := 1 + 1 / 10 ^ 10
      volumeScale := 1 + 1 / 10 ^ 10
      commission := ⟨.usdPerMillionUsd, 250, 0, .currency, "USD", 0⟩ }

/-- A target two dollars above a tiny entry. -/
def low : CoverageInput := ⟨.buy, 2, 4, 1, 1, GridSample.metadata⟩

theorem unrounded {input : CoverageInput} (hmetadata : input.metadata = GridSample.metadata)
    (h : ∀ step ∈ input.steps 0, truncate Decimal.precision step = step) : input.Unrounded := by
  intro minimum hminimum
  have hzero : minimumCommissionInAccountCurrency GridSample.metadata = .ok 0 := by decide +kernel
  rw [hmetadata, hzero, Except.ok.injEq] at hminimum
  exact hminimum ▸ h

theorem input_unrounded : input.Unrounded ∧ (input.moved (3999 / 2) 3).Unrounded :=
  ⟨unrounded rfl (by decide +kernel), unrounded rfl (by decide +kernel)⟩

theorem command_lowered : Lowered input (3999 / 2) 3 :=
  ⟨by decide +kernel, by decide +kernel, by decide +kernel, by decide +kernel⟩

end CoverageSample

theorem lowered_covered_gold :
    (evaluateCommissionCoverage (CoverageSample.input.moved (3999 / 2) 3)).approved ∧
    (validateCommandFeeBuffer [CoverageSample.command] GridSample.metadata 1).approved := by
  refine ⟨lowered_covered.1 CoverageSample.input _ _ CoverageSample.input_unrounded.1
    CoverageSample.input_unrounded.2 CoverageSample.command_lowered (by decide +kernel),
    lowered_covered.2 _ _ _ (.inl rfl) fun command hcommand => ?_⟩
  obtain rfl := List.mem_singleton.mp hcommand
  obtain ⟨evidence, hfound⟩ := Option.isSome_iff_exists.mp
    (by decide +kernel : (minimumFeeBufferedTarget CoverageSample.search).evidence.isSome)
  have htarget : evidence.takeProfit = 2000 + 3 / 10 := by
    have hsome : (minimumFeeBufferedTarget CoverageSample.search).evidence.map (·.takeProfit) =
        some (2000 + 3 / 10) := by decide +kernel
    rw [hfound] at hsome
    exact Option.some.inj hsome
  refine ⟨CoverageSample.search, evidence, ⟨rfl, rfl, rfl⟩, by decide +kernel, hfound, ?_, ?_, ?_⟩
  · rw [htarget]
    exact CoverageSample.command_lowered
  · rw [htarget]
    decide +kernel
  · rw [htarget]
    exact CoverageSample.input_unrounded

/-- Where the fees lose digits a larger volume is refused at the same prices, and at the price zero
    nothing is approved. -/
theorem rounded_fees_uncovered :
    ((evaluateCommissionCoverage CoverageSample.fine).approved ∧
      Lowered CoverageSample.fine 1999 9500000000000000 ∧
      ¬ (evaluateCommissionCoverage (CoverageSample.fine.moved 1999 9500000000000000)).approved) ∧
    (evaluateCommissionCoverage CoverageSample.low).approved ∧
      isTickAligned 0 CoverageSample.low.metadata.tickSize ∧
      0 < (CoverageSample.low.moved 0 1).takeProfit ∧
      ¬ (evaluateCommissionCoverage (CoverageSample.low.moved 0 1)).approved := by
  refine ⟨⟨by decide +kernel, ⟨by decide +kernel, by decide +kernel, by decide +kernel,
    by decide +kernel⟩, by decide +kernel⟩, by decide +kernel⟩

end ScalpingBot.Risk
