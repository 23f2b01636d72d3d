import ScalpingBot.Gateway.State
import ScalpingBot.Paper.Exposure

/-! The slippage decisions of the paper gateway and of the demo gateway, on the same order, fill price
    and limits. The paper gateway measures the distance to the requested price whichever way it
    goes. -/

namespace ScalpingBot.Paper

variable (o : PaperGatewayOptions) (d : Gateway.CTraderDemoGatewayOptions)
  (c : PendingOrderCommand) (price : Decimal)

/-- A demo gateway with the tick size and the limits of the paper gateway. -/
def sameLimits : Gateway.CTraderDemoGatewayOptions :=
  { d with
    tickSize := o.tickSize
    maxSlippagePoints := o.maxSlippagePoints
    maxSlippageBps := o.maxSlippageBps }

/-- The decision of the demo gateway under those limits. -/
def demoExceeded : Bool :=
  Gateway.CTraderDemoGateway.slippageExceeded (sameLimits o d) c price

/-- The fill is better than requested for the side of the order. -/
def Better : Prop := match c.side with
  | .buy => price < c.entryPrice
  | .sell => c.entryPrice < price

/-- The fill is worse than requested for the side of the order. -/
def Worse : Prop := match c.side with
  | .buy => c.entryPrice < price
  | .sell => price < c.entryPrice

/-- How far the fill is from the requested price. -/
def distance : Decimal := |Decimal.minus price c.entryPrice|

/-- The distance in ticks. -/
def points : Decimal := Decimal.div (distance c price) o.tickSize

/-- The distance is more than the limit in basis points; from the price 0 every distance is. -/
def BeyondBps : Prop :=
  if c.entryPrice = 0 then 0 < distance c price
  else o.maxSlippageBps <
    Decimal.times (Decimal.div (distance c price) c.entryPrice) 10000

/-- The distance is more than a limit. -/
def BeyondLimits : Prop := o.maxSlippagePoints < points o c price ∨ BeyondBps o c price

/-- The two gateways agree, a better fill is never excess slippage, and a worse one is exactly when
    its distance is more than a limit. -/
def SameDecision : Prop :=
  slippageExceeded o c price = demoExceeded o d c price ∧
  (Better c price → slippageExceeded o c price = false ∧ demoExceeded o d c price = false) ∧
  (Worse c price → (slippageExceeded o c price = true ↔ BeyondLimits o c price) ∧
    (demoExceeded o d c price = true ↔ BeyondLimits o c price))

variable {o d c price}

theorem slippageExceeded_iff : slippageExceeded o c price = true ↔ BeyondLimits o c price := by
  rw [slippageExceeded, decide_eq_true_eq]
  rfl

theorem minus_comm (a b : Decimal) : Decimal.minus a b = -Decimal.minus b a := by
  rw [Decimal.minus, Decimal.minus, ← Significant.truncate_neg, neg_sub]

theorem minus_nonneg {a b : Decimal} (h : b ≤ a) : 0 ≤ Decimal.minus a b :=
  Significant.truncate_nonneg (sub_nonneg.mpr h)

theorem minus_nonpos {a b : Decimal} (h : a ≤ b) : Decimal.minus a b ≤ 0 := by
  rw [minus_comm]
  exact neg_nonpos.mpr (minus_nonneg h)

/-- What the demo gateway measures: the distance of a fill that is not better. -/
def adverse (c : PendingOrderCommand) (price : Decimal) : Decimal :=
  max 0 (match c.side with
    | .buy => Decimal.minus price c.entryPrice
    | .sell => Decimal.minus c.entryPrice price)

theorem adverse_of_better (h : Better c price) : adverse c price = 0 := by
  rw [adverse, max_eq_left_iff]
  rw [Better] at h
  cases hs : c.side <;> simp only [hs] at h ⊢ <;> exact minus_nonpos h.le

theorem adverse_of_not_better (h : ¬ Better c price) : adverse c price = distance c price := by
  rw [Better] at h
  rw [adverse, distance]
  cases hs : c.side <;> simp only [hs, not_lt] at h ⊢
  · have := minus_nonneg h
    rw [max_eq_right this, abs_of_nonneg this]
  · have := minus_nonneg h
    rw [max_eq_right this, minus_comm price, abs_neg, abs_of_nonneg this]

/-- The limit in points that the demo gateway holds an order to. -/
def demoPoints (o : PaperGatewayOptions) (c : PendingOrderCommand) : Decimal :=
  match c.entryRangePoints with
  | some range => range
  | none => o.maxSlippagePoints

theorem demoExceeded_iff : demoExceeded o d c price = true ↔
    demoPoints o c < Decimal.div (adverse c price) o.tickSize ∨
      if c.entryPrice = 0 then 0 < adverse c price
      else o.maxSlippageBps < Decimal.times (Decimal.div (adverse c price) c.entryPrice) 10000 := by
  rw [demoExceeded, Gateway.CTraderDemoGateway.slippageExceeded, decide_eq_true_eq]
  rfl

theorem demoPoints_nonneg : 0 ≤ demoPoints o c := by
  rw [demoPoints]
  split
  · exact Nat.cast_nonneg _
  · exact o.maxSlippagePoints_nonneg

theorem demoExceeded_of_better (h : Better c price) : demoExceeded o d c price = false := by
  rw [← Bool.not_eq_true, demoExceeded_iff, adverse_of_better h]
  have hdiv (a : Decimal) : Decimal.div 0 a = 0 := by
    rw [Decimal.div, zero_div, Significant.truncate_zero]
  have htimes : Decimal.times 0 10000 = 0 := by
    rw [Decimal.times, zero_mul, Significant.truncate_zero]
  rw [hdiv, hdiv, htimes]
  have hpoints := demoPoints_nonneg (o := o) (c := c)
  have hbps := o.maxSlippageBps_nonneg
  split <;> simp [hpoints, hbps]

theorem demoExceeded_of_not_better (h : ¬ Better c price) : demoExceeded o d c price = true ↔
    demoPoints o c < points o c price ∨ BeyondBps o c price := by
  rw [demoExceeded_iff, adverse_of_not_better h]
  rfl

theorem Worse.not_better (h : Worse c price) : ¬ Better c price := by
  rw [Worse] at h
  rw [Better]
  cases hs : c.side <;> simp only [hs] at h ⊢ <;> exact h.not_gt

/-- A fill at the requested price is beyond no limit. -/
theorem eq_of_not_better_not_worse (hb : ¬ Better c price) (hw : ¬ Worse c price) :
    price = c.entryPrice := by
  rw [Better] at hb
  rw [Worse] at hw
  cases hs : c.side <;> simp only [hs, not_lt] at hb hw
  · exact le_antisymm hw hb
  · exact le_antisymm hb hw

/-- Where the order's own range, if it has one, passes the same distances as the gateway's limit. -/
def RangeAgrees (o : PaperGatewayOptions) (c : PendingOrderCommand) (price : Decimal) : Prop :=
  ∀ range : ℕ, c.entryRangePoints = some range →
    BeyondBps o c price ∨ (o.maxSlippagePoints < points o c price ↔ range < points o c price)

theorem demo_right_iff (h : ¬ Better c price) :
    (demoExceeded o d c price = true ↔ BeyondLimits o c price) ↔ RangeAgrees o c price := by
  rw [demoExceeded_of_not_better h, demoPoints, BeyondLimits, RangeAgrees]
  cases c.entryRangePoints with
  | none => simp
  | some range =>
    simp only [Option.some.injEq, forall_eq']
    by_cases hbps : BeyondBps o c price
    · simp only [hbps, or_true, true_or]
    · simp only [hbps, or_false, false_or]
      exact ⟨Iff.symm, Iff.symm⟩

/-- A fill at the requested price has no distance that a range could tell apart. -/
theorem rangeAgrees_of_eq (h : price = c.entryPrice) : RangeAgrees o c price := by
  intro range _
  have hzero : points o c price = 0 := by
    rw [points, distance, h, Decimal.minus, sub_self, Significant.truncate_zero, abs_zero,
      Decimal.div, zero_div, Significant.truncate_zero]
  rw [hzero]
  exact .inr (iff_of_false o.maxSlippagePoints_nonneg.not_gt (Nat.cast_nonneg range).not_gt)

/-- The gateways decide as they should exactly if the fill is not better than requested by more than a
    limit and, where it is worse, the order has no range of its own that tells another distance
    apart. -/
theorem sameDecision_iff : SameDecision o d c price ↔
    (Better c price → ¬ BeyondLimits o c price) ∧ (Worse c price → RangeAgrees o c price) := by
  constructor
  · rintro ⟨-, hbetter, hworse⟩
    refine ⟨fun h => ?_, fun h => (demo_right_iff h.not_better).mp (hworse h).2⟩
    rw [← slippageExceeded_iff, (hbetter h).1]
    exact Bool.false_ne_true
  · rintro ⟨hbetter, hworse⟩
    have hpaper (h : Better c price) : slippageExceeded o c price = false := by
      rw [← Bool.not_eq_true, slippageExceeded_iff]
      exact hbetter h
    refine ⟨?_, fun h => ⟨hpaper h, demoExceeded_of_better h⟩, fun h => ⟨slippageExceeded_iff,
      (demo_right_iff h.not_better).mpr (hworse h)⟩⟩
    by_cases hb : Better c price
    · rw [hpaper hb, demoExceeded_of_better hb]
    · have hrange : RangeAgrees o c price := by
        by_cases hw : Worse c price
        · exact hworse hw
        · exact rangeAgrees_of_eq (eq_of_not_better_not_worse hb hw)
      rw [Bool.eq_iff_iff, slippageExceeded_iff, (demo_right_iff hb).mpr hrange]

namespace Sample

/-- A buy limit at 99. -/
def limitOrder : PendingOrderCommand :=
  { leg .buy 10 with executionOrderType := some .limit, entryPrice := 99 }

/-- The market is ten ticks below the limit. -/
def fallen : Quote := ⟨"XAUUSD", 989 / 10 - 1 / 100, 989 / 10, 1, none⟩

/-- A demo gateway; its limits are those of the paper gateway in every comparison. -/
def demo : Gateway.CTraderDemoGatewayOptions where
  symbolId := "41"
  symbolName := "XAUUSD"
  tickSize := 1 / 100
  maxSlippagePoints := 5
  maxSlippageBps := 2

end Sample

/-- A buy limit that the market lets have ten ticks cheaper: the paper gateway rejects it for its
    slippage, the demo gateway finds none. -/
theorem better_fill_rejected :
    fillPrice Sample.options Sample.fallen Sample.limitOrder = 989 / 10 ∧
    (fill Sample.options Sample.fallen none (newOrder 0 Sample.limitOrder)).state = .rejected ∧
    slippageExceeded Sample.options Sample.limitOrder (989 / 10) = true ∧
    demoExceeded Sample.options Sample.demo Sample.limitOrder (989 / 10) = false := by
  decide +kernel

end ScalpingBot.Paper
