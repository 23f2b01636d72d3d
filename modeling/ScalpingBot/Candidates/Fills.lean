import ScalpingBot.Candidates.Payoff
import ScalpingBot.Library.Endpoint

/-! The fills behind a payoff: what a position keeps when it closes at a price near its stop or near
    its target, against the loss and the reward that `balancedPayoff` models. -/

namespace ScalpingBot.Candidates

open Risk (exactCommission)

/-! ### A closed position -/

/-- The price at a distance from the entry, toward the profit of the side. -/
def closeAt : OrderSide → Decimal → Decimal → Decimal
  | .buy, entry, gain => entry + gain
  | .sell, entry, gain => entry - gain

/-- What a position keeps at a gain, per unit and as a price: both commissions are charged, and the
    conversion fee on whatever is realized. -/
def realizedNet (metadata : SymbolMetadata) (side : OrderSide) (entry quantity gain : Decimal) :
    Except String Decimal := do
  let opening ← oneWayCommission id metadata entry quantity
  let closing ← oneWayCommission id metadata (closeAt side entry gain) quantity
  let conversionRate ← decimal metadata.commission.pnlConversionFeeRate
  return gain - (opening + closing) / perPrice metadata quantity - conversionRate / 100 * |gain|

/-- A position between a stop and a target. -/
structure Exits (side : OrderSide) (entry reward risk : Decimal) : Prop where
  entryPos : 0 < entry
  rewardNonneg : 0 ≤ reward
  riskNonneg : 0 ≤ risk
  stopPos : 0 < closeAt side entry (-risk)
  targetPos : 0 < closeAt side entry reward

/-- The farthest that a fill can be from a price: the reserve, or where prices end. -/
def lastFill : OrderSide → Decimal → Decimal → Decimal
  | .buy, price, reserve => min reserve price
  | .sell, _, reserve => reserve

/-! ### The slack of a payoff -/

section

variable {metadata : SymbolMetadata} {side : OrderSide}
  {minimum entry bound quantity reserve gain : Decimal}

/-- What the payoff of a gain leaves over when the fill is worse by a distance. -/
def slack (metadata : SymbolMetadata) (side : OrderSide)
    (minimum entry bound quantity reserve gain distance : Decimal) : Decimal :=
  reserve - distance +
    metadata.commission.pnlConversionFeeRate / 100 * (|gain| - |gain - distance|) +
    (2 * feePrice metadata minimum quantity bound - feePrice metadata minimum quantity entry -
      feePrice metadata minimum quantity (closeAt side entry (gain - distance)))

theorem convexOn_affine (slope start : ℚ) :
    ConvexOn ℚ Set.univ fun t : ℚ => slope * t + start := by
  refine ⟨convex_univ, fun x _ y _ a b _ _ hab => le_of_eq ?_⟩
  simp only [smul_eq_mul]
  linear_combination (-start) * hab

theorem closeAt_affine (side : OrderSide) (entry gain : Decimal) :
    ∃ slope start : ℚ, ∀ distance, closeAt side entry (gain - distance) =
      slope * distance + start := by
  cases side with
  | buy => exact ⟨-1, entry + gain, fun distance => by rw [closeAt]; ring⟩
  | sell => exact ⟨1, entry - gain, fun distance => by rw [closeAt]; ring⟩

theorem feePrice_convexOn (hp : PayoffChecked metadata quantity) (minimum slope start : ℚ) :
    ConvexOn ℚ Set.univ fun t : ℚ => feePrice metadata minimum quantity (slope * t + start) := by
  have hrate := convexOn_affine
    (slope * quantity * metadata.volumeScale * metadata.commission.rate / 1000000 *
      metadata.quoteToAccountConversionRate)
    (start * quantity * metadata.volumeScale * metadata.commission.rate / 1000000 *
      metadata.quoteToAccountConversionRate)
  have hmax := hrate.sup (convexOn_const minimum convex_univ)
  have hscaled := hmax.smul (inv_nonneg.mpr hp.perPricePos.le)
  refine hscaled.congr fun t _ => ?_
  simp only [Pi.sup_apply, smul_eq_mul, feePrice, exactCommission, div_eq_inv_mul]
  congr 2
  ring

theorem feePrice_continuous (metadata : SymbolMetadata) (minimum quantity : Decimal) :
    Continuous fun price => feePrice metadata minimum quantity price := by
  simp only [feePrice, exactCommission]
  fun_prop

theorem slack_concaveOn (hp : PayoffChecked metadata quantity) :
    ConcaveOn ℚ Set.univ (slack metadata side minimum entry bound quantity reserve gain) := by
  obtain ⟨slope, start, hclose⟩ := closeAt_affine side entry gain
  have hfee := (text_bounds hp.fee.1).1
  have habs : ConvexOn ℚ Set.univ fun t : ℚ => |gain - t| := by
    have hmax := (convexOn_affine (-1) gain).sup (convexOn_affine 1 (-gain))
    refine hmax.congr fun t _ => ?_
    simp only [Pi.sup_apply, abs_eq_max_neg]
    congr 1 <;> ring
  have hcharged := habs.smul (div_nonneg hfee (by norm_num : (0 : ℚ) ≤ 100))
  have hcosts := (hcharged.add (feePrice_convexOn hp minimum slope start)).add
    (convexOn_affine 1 (-(reserve + metadata.commission.pnlConversionFeeRate / 100 * |gain| +
      (2 * feePrice metadata minimum quantity bound - feePrice metadata minimum quantity entry))))
  refine hcosts.neg.congr fun t _ => ?_
  simp only [Pi.neg_apply, Pi.add_apply, smul_eq_mul, slack, hclose]
  ring

theorem slack_continuous :
    Continuous (slack metadata side minimum entry bound quantity reserve gain) := by
  obtain ⟨slope, start, hclose⟩ := closeAt_affine side entry gain
  change Continuous fun distance => slack metadata side minimum entry bound quantity reserve gain
    distance
  simp only [slack, hclose]
  have hfee := feePrice_continuous metadata minimum quantity
  fun_prop

theorem realizedNet_ok (hp : PayoffChecked metadata quantity)
    (hmin : minimumCommissionInAccountCurrency id metadata = .ok minimum) (hentry : 0 < entry)
    (hclose : 0 < closeAt side entry gain) : realizedNet metadata side entry quantity gain =
      .ok (gain - (feePrice metadata minimum quantity entry +
        feePrice metadata minimum quantity (closeAt side entry gain)) -
        metadata.commission.pnlConversionFeeRate / 100 * |gain|) := by
  have hcommission {price : Decimal} (hprice : 0 < price) : oneWayCommission id metadata price
      quantity = .ok (exactCommission metadata minimum price quantity) :=
    oneWayCommission_id.mpr ⟨hp.commission, hprice, hp.quantityPos, minimum, hmin, rfl⟩
  rw [realizedNet, hcommission hentry, ok_bind, hcommission hclose, ok_bind,
    decimal_eq _ hp.fee.1, ok_bind, feePrice, feePrice, add_div]
  rfl

/-- The fills of a price: up to the last one, which is left out where the price would be zero. -/
theorem fills_between (hreserve : 0 ≤ reserve) (hclose : 0 < closeAt side entry gain) :
    0 ≤ lastFill side (closeAt side entry gain) reserve ∧
    Set.Ico 0 (lastFill side (closeAt side entry gain) reserve) ⊆
      {distance | 0 ≤ distance ∧ distance ≤ reserve ∧
        0 < closeAt side entry (gain - distance)} ∧
    {distance | 0 ≤ distance ∧ distance ≤ reserve ∧ 0 < closeAt side entry (gain - distance)} ⊆
      Set.Icc 0 (lastFill side (closeAt side entry gain) reserve) := by
  cases side with
  | buy =>
    simp only [closeAt, lastFill] at hclose ⊢
    refine ⟨le_min hreserve hclose.le, ?_, ?_⟩
    · rintro distance ⟨hnonneg, hlt⟩
      obtain ⟨hreserveLt, hprice⟩ := lt_min_iff.mp hlt
      exact ⟨hnonneg, hreserveLt.le, by linarith⟩
    · rintro distance ⟨hnonneg, hle, hprice⟩
      exact ⟨hnonneg, le_min hle (by linarith)⟩
  | sell =>
    simp only [closeAt, lastFill] at hclose ⊢
    refine ⟨hreserve, ?_, ?_⟩
    · rintro distance ⟨hnonneg, hlt⟩
      exact ⟨hnonneg, hlt.le, by linarith⟩
    · rintro distance ⟨hnonneg, hle, -⟩
      exact ⟨hnonneg, hle⟩

/-- Every fill within the reserve keeps what is modelled exactly if the last one does. -/
theorem fills_kept_iff (hp : PayoffChecked metadata quantity)
    (hmin : minimumCommissionInAccountCurrency id metadata = .ok minimum) (hentry : 0 < entry)
    (hclose : 0 < closeAt side entry gain) (hentryBound : entry ≤ bound)
    (hcloseBound : closeAt side entry gain ≤ bound) (hreserve : 0 ≤ reserve) :
    (∀ distance, 0 ≤ distance → distance ≤ reserve → 0 < closeAt side entry (gain - distance) →
      ∃ net, realizedNet metadata side entry quantity (gain - distance) = .ok net ∧
        gain - metadata.commission.pnlConversionFeeRate / 100 * |gain| -
          feePrice metadata minimum quantity bound * 2 - reserve ≤ net) ↔
    0 ≤ slack metadata side minimum entry bound quantity reserve gain
      (lastFill side (closeAt side entry gain) reserve) := by
  obtain ⟨hlast, hlower, hupper⟩ := fills_between hreserve hclose
  have hzero : 0 ≤ slack metadata side minimum entry bound quantity reserve gain 0 := by
    have hfees {price : Decimal} (hle : price ≤ bound) :
        feePrice metadata minimum quantity price ≤ feePrice metadata minimum quantity bound := by
      have hscale := feePrice_scale hp (minimumCommission_id_nonneg hmin) le_rfl
        (hle.trans_eq (one_mul bound).symm)
      rwa [one_mul] at hscale
    have hopening := hfees hentryBound
    have hclosing := hfees hcloseBound
    rw [slack, sub_zero, sub_zero, sub_self, mul_zero]
    linarith
  rw [← nonneg_iff_endpoint hlast (slack_concaveOn hp) slack_continuous hzero hlower hupper]
  constructor
  · rintro h distance ⟨hnonneg, hle, hprice⟩
    obtain ⟨net, hnet, hkept⟩ := h distance hnonneg hle hprice
    rw [realizedNet_ok hp hmin hentry hprice, Except.ok.injEq] at hnet
    subst hnet
    rw [slack]
    linarith
  · intro h distance hnonneg hle hprice
    have hslack := h distance ⟨hnonneg, hle, hprice⟩
    rw [slack] at hslack
    exact ⟨_, realizedNet_ok hp hmin hentry hprice, by linarith⟩

end

/-! ### The bounds of a payoff -/

/-- The conversion fee on the reserve costs no more than the two commissions at the bound leave over
    at the worst fill. -/
def FillCovered (metadata : SymbolMetadata) (side : OrderSide)
    (minimum entry bound quantity reserve gain : Decimal) : Prop :=
  let last := lastFill side (closeAt side entry gain) reserve
  metadata.commission.pnlConversionFeeRate / 100 * (|gain - last| - |gain|) ≤ reserve - last +
    (2 * feePrice metadata minimum quantity bound - feePrice metadata minimum quantity entry -
      feePrice metadata minimum quantity (closeAt side entry (gain - last)))

/-- The modelled loss bounds every stop fill, and the modelled reward every target fill, exactly if
    the commissions cover the conversion fee on the reserve at the worst fill of each. -/
theorem fills_bounded_iff {metadata : SymbolMetadata} {side : OrderSide}
    {entry reward risk quantity reservePoints entryPoints : Decimal} {payoff : Payoff}
    (h : balancedPayoff id metadata entry reward risk quantity reservePoints entryPoints =
      .ok payoff)
    (hexits : Exits side entry reward risk) (hreservePoints : 0 ≤ reservePoints)
    (hentryPoints : 0 ≤ entryPoints) :
    ((∀ slip, 0 ≤ slip → slip ≤ payoff.reserve → 0 < closeAt side entry (-risk - slip) →
        ∃ net, realizedNet metadata side entry quantity (-risk - slip) = .ok net ∧
          -net ≤ payoff.netLoss) ∧
      ∀ short, 0 ≤ short → short ≤ payoff.reserve → 0 < closeAt side entry (reward - short) →
        ∃ net, realizedNet metadata side entry quantity (reward - short) = .ok net ∧
          payoff.netReward ≤ net) ↔
    ∀ minimum, minimumCommissionInAccountCurrency id metadata = .ok minimum →
      ∀ gain ∈ [-risk, reward], FillCovered metadata side minimum entry
        (priceBound metadata entry reward risk reservePoints entryPoints) quantity
        (metadata.tickSize * reservePoints) gain := by
  obtain ⟨hp, -, minimum, hmin, rfl⟩ := balancedPayoff_id.mp h
  have htick := hp.tick.2
  have hrisk := hexits.riskNonneg
  have hreward := hexits.rewardNonneg
  have hreserve : 0 ≤ metadata.tickSize * reservePoints := mul_nonneg htick.le hreservePoints
  have hentryReserve : 0 ≤ metadata.tickSize * entryPoints := mul_nonneg htick.le hentryPoints
  have hbound {gain : Decimal} (hlower : -risk ≤ gain) (hupper : gain ≤ reward) :
      closeAt side entry gain ≤
        priceBound metadata entry reward risk reservePoints entryPoints := by
    rw [priceBound]
    cases side <;> rw [closeAt] <;> linarith
  have hentryBound : entry ≤ priceBound metadata entry reward risk reservePoints entryPoints := by
    rw [priceBound]
    linarith
  have hstop := fills_kept_iff hp hmin hexits.entryPos hexits.stopPos hentryBound
    (hbound le_rfl (by linarith)) hreserve
  have htarget := fills_kept_iff hp hmin hexits.entryPos hexits.targetPos hentryBound
    (hbound (by linarith) le_rfl) hreserve
  have hcovered (gain : Decimal) : FillCovered metadata side minimum entry
      (priceBound metadata entry reward risk reservePoints entryPoints) quantity
      (metadata.tickSize * reservePoints) gain ↔
      0 ≤ slack metadata side minimum entry
        (priceBound metadata entry reward risk reservePoints entryPoints) quantity
        (metadata.tickSize * reservePoints) gain
        (lastFill side (closeAt side entry gain) (metadata.tickSize * reservePoints)) := by
    simp only [FillCovered, slack]
    constructor <;> intro hle <;> linarith
  have hcondition : (∀ minimum', minimumCommissionInAccountCurrency id metadata = .ok minimum' →
      ∀ gain ∈ [-risk, reward], FillCovered metadata side minimum' entry
        (priceBound metadata entry reward risk reservePoints entryPoints) quantity
        (metadata.tickSize * reservePoints) gain) ↔
      FillCovered metadata side minimum entry
        (priceBound metadata entry reward risk reservePoints entryPoints) quantity
        (metadata.tickSize * reservePoints) (-risk) ∧
      FillCovered metadata side minimum entry
        (priceBound metadata entry reward risk reservePoints entryPoints) quantity
        (metadata.tickSize * reservePoints) reward := by
    simp only [hmin, Except.ok.injEq, forall_eq', List.forall_mem_cons]
    simp
  have hloss (net : Decimal) : -net ≤ (exactPayoff metadata minimum entry reward risk quantity
      reservePoints entryPoints).netLoss ↔
      -risk - metadata.commission.pnlConversionFeeRate / 100 * |-risk| - feePrice metadata minimum
        quantity (priceBound metadata entry reward risk reservePoints entryPoints) * 2 -
        metadata.tickSize * reservePoints ≤ net := by
    simp only [exactPayoff, abs_neg, abs_of_nonneg hrisk]
    constructor <;> intro hle <;> linarith
  have hkept (net : Decimal) : (exactPayoff metadata minimum entry reward risk quantity
      reservePoints entryPoints).netReward ≤ net ↔
      reward - metadata.commission.pnlConversionFeeRate / 100 * |reward| - feePrice metadata minimum
        quantity (priceBound metadata entry reward risk reservePoints entryPoints) * 2 -
        metadata.tickSize * reservePoints ≤ net := by
    simp only [exactPayoff, abs_of_nonneg hreward]
    constructor <;> intro hle <;> linarith
  rw [hcondition, hcovered, hcovered, ← hstop, ← htarget]
  simp only [hloss, hkept]
  rfl

namespace FillsSample

/-- Gold with a conversion fee of one percent. -/
def converted : SymbolMetadata :=
  { Risk.GridSample.metadata with
    commission := ⟨.usdPerMillionUsd, 30, 0, .currency, "USD", 1⟩ }

end FillsSample

theorem fills_bounded_iff_gold : ∃ payoff,
    balancedPayoff id Risk.GridSample.metadata 2000 4 1 1 = .ok payoff ∧
    (∀ slip, 0 ≤ slip → slip ≤ payoff.reserve → 0 < closeAt .buy 2000 (-1 - slip) →
      ∃ net, realizedNet Risk.GridSample.metadata .buy 2000 1 (-1 - slip) = .ok net ∧
        -net ≤ payoff.netLoss) ∧
    ∀ short, 0 ≤ short → short ≤ payoff.reserve → 0 < closeAt .buy 2000 (4 - short) →
      ∃ net, realizedNet Risk.GridSample.metadata .buy 2000 1 (4 - short) = .ok net ∧
        payoff.netReward ≤ net := by
  have hok : (balancedPayoff id Risk.GridSample.metadata 2000 4 1 1).map Payoff.reserve =
      .ok (65 / 100) := by decide +kernel
  obtain ⟨payoff, hpayoff, -⟩ := map_ok.mp hok
  refine ⟨payoff, hpayoff, (fills_bounded_iff hpayoff ⟨by norm_num, by norm_num, by norm_num,
    by norm_num [closeAt], by norm_num [closeAt]⟩ (by norm_num [exitReservePoints])
    (by norm_num [entryRangePoints])).mpr fun minimum hmin => ?_⟩
  have hzero : minimumCommissionInAccountCurrency id Risk.GridSample.metadata = .ok 0 := by
    decide +kernel
  rw [hzero, Except.ok.injEq] at hmin
  subst hmin
  simp only [FillCovered]
  decide +kernel

/-- A conversion fee on the reserve is not modelled: a stop that slips by the whole reserve loses
    more than the payoff says. -/
theorem slipped_stop_exceeds_loss :
    Exits .buy 2000 4 1 ∧ ∃ payoff net,
      balancedPayoff id FillsSample.converted 2000 4 1 1 = .ok payoff ∧
      0 < closeAt .buy 2000 (-1 - payoff.reserve) ∧
      realizedNet FillsSample.converted .buy 2000 1 (-1 - payoff.reserve) = .ok net ∧
      payoff.netLoss < -net := by
  refine ⟨⟨by norm_num, by norm_num, by norm_num, by norm_num [closeAt], by norm_num [closeAt]⟩,
    exactPayoff FillsSample.converted 0 2000 4 1 1 exitReservePoints entryRangePoints,
    -3572901 / 2000000, ?_⟩
  decide +kernel

end ScalpingBot.Candidates
