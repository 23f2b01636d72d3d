import ScalpingBot.Protection.Plan

/-! What a plan of the protection maintenance asks for: prices of the tick grid on the inner side of
    the exact levels, no wider than what the broker holds, and nothing more once they are in
    place. -/

namespace ScalpingBot.Protection

open Gateway (BrokerPosition)

/-- The prices of a position are columns of the store. -/
structure ProtectionPosition.Stored (position : ProtectionPosition) : Prop where
  entry : ∀ price, position.entryPrice = some price → Decimal.IsNumeric price
  orderEntry : Decimal.IsNumeric position.orderEntry
  orderStopLoss : Decimal.IsNumeric position.orderStopLoss
  orderTakeProfit : Decimal.IsNumeric position.orderTakeProfit

/-- The second stop of a position loses at most what the first one does. -/
def Tighter : OrderSide → ℚ → ℚ → Prop
  | .buy, a, b => a ≤ b
  | .sell, a, b => b ≤ a

/-- The exact stop loss at a price: the order's own one, or its distance from the entry. -/
def ProtectionPosition.exactStop (position : ProtectionPosition) (price : ℚ) : ℚ :=
  if position.strategyVersion = trendRetestVersion then position.orderStopLoss
  else price + (position.orderStopLoss - position.orderEntry)

def ProtectionPosition.exactTarget (position : ProtectionPosition) (price : ℚ) : ℚ :=
  if position.strategyVersion = trendRetestVersion then position.orderTakeProfit
  else price + (position.orderTakeProfit - position.orderEntry)

/-! ### The tick grid -/

variable {tick x : ℚ}

theorem onTick_eq (htick : Decimal.IsNumeric tick) (hpos : 0 < tick) (hx : Decimal.InPlaces x)
    (hlt : |x| < 10 ^ 22) (up : Bool) :
    onTick tick up x = ((if up then ⌈x / tick⌉ else ⌊x / tick⌋ : ℤ) : ℚ) * tick := by
  have hbound : |x| < 10 ^ 28 := hlt.trans (by norm_num)
  obtain ⟨hfloor, hceil⟩ := hx.floor_ceil_div htick.1 hpos hbound
  have htlt : tick < 10 ^ 20 := (le_abs_self tick).trans_lt htick.2
  have hdiv : x / tick * tick = x := div_mul_cancel₀ x hpos.ne'
  obtain ⟨hlow, hhigh⟩ := abs_lt.mp hlt
  rw [onTick]
  cases up with
  | true =>
    have hge := mul_le_mul_of_nonneg_right (Int.le_ceil (x / tick)) hpos.le
    have hup := mul_lt_mul_of_pos_right (Int.ceil_lt_add_one (x / tick)) hpos
    simp only [if_true, hceil, Decimal.times]
    refine (htick.1.intMul _).truncate_eq (abs_lt.mpr ⟨?_, ?_⟩) <;> linarith
  | false =>
    have hle := mul_le_mul_of_nonneg_right (Int.floor_le (x / tick)) hpos.le
    have hdown := mul_lt_mul_of_pos_right (Int.lt_floor_add_one (x / tick)) hpos
    simp only [Bool.false_eq_true, if_false, hfloor, Decimal.times]
    refine (htick.1.intMul _).truncate_eq (abs_lt.mpr ⟨?_, ?_⟩) <;> linarith

/-- A stop rounded to the grid is on its inner side, and less than one tick away. -/
theorem onTick_spec (htick : Decimal.IsNumeric tick) (hpos : 0 < tick) (hx : Decimal.InPlaces x)
    (hlt : |x| < 10 ^ 22) (up : Bool) : (∃ n : ℤ, onTick tick up x = n * tick) ∧
      (if up then x ≤ onTick tick up x ∧ onTick tick up x < x + tick
        else onTick tick up x ≤ x ∧ x - tick < onTick tick up x) := by
  rw [onTick_eq htick hpos hx hlt]
  refine ⟨⟨_, rfl⟩, ?_⟩
  have hdiv : x / tick * tick = x := div_mul_cancel₀ x hpos.ne'
  cases up with
  | true =>
    have hge := mul_le_mul_of_nonneg_right (Int.le_ceil (x / tick)) hpos.le
    have hup := mul_lt_mul_of_pos_right (Int.ceil_lt_add_one (x / tick)) hpos
    simp only [if_true]
    exact ⟨by linarith, by linarith⟩
  | false =>
    have hle := mul_le_mul_of_nonneg_right (Int.floor_le (x / tick)) hpos.le
    have hdown := mul_lt_mul_of_pos_right (Int.lt_floor_add_one (x / tick)) hpos
    simp only [Bool.false_eq_true, if_false]
    exact ⟨by linarith, by linarith⟩

/-- What the broker holds is on the grid. -/
theorem actual_grid {value : Gateway.Field Decimal} {held : Decimal}
    (h : actual tick value = .ok (some held)) (hpos : 0 < tick) : ∃ n : ℤ, held = n * tick := by
  cases value with
  | absent => cases h
  | invalid => cases h
  | value a =>
    by_cases hzero : a = 0
    · rw [actual, if_pos hzero] at h
      cases h
    · simp only [actual, hzero, if_false, bind_ok, require_ok, pure_ok] at h
      obtain ⟨parsed, hparsed, _, hden, heq⟩ := h
      obtain rfl := Option.some.inj heq
      refine ⟨(parsed / tick).num, ?_⟩
      rw [Rat.coe_int_num_of_den_eq_one hden, div_mul_cancel₀ _ hpos.ne']

theorem actual_of_grid {held : Decimal} (hpos : 0 < tick) (hheld : 0 < held)
    (hgrid : ∃ n : ℤ, held = n * tick) : actual tick (.value held) = .ok (some held) := by
  obtain ⟨n, hn⟩ := hgrid
  have hden : (held / tick).den = 1 := by
    rw [hn, mul_div_cancel_right₀ _ hpos.ne', Rat.den_intCast]
  rw [actual, if_neg hheld.ne', positive, if_pos hheld, ok_bind, require_eq hden, ok_bind]
  rfl

/-! ### The exact levels -/

variable {position : ProtectionPosition} {raw : BrokerPosition} {symbolId : String} {plan : Plan}
  {price : Decimal} {distances : Decimal × Decimal}

theorem numeric_sub_lt {a b : ℚ} (ha : Decimal.IsNumeric a) (hb : Decimal.IsNumeric b) :
    |a - b| < 10 ^ 21 := by
  have hle := abs_sub a b
  have ha' := ha.2
  have hb' := hb.2
  linarith

/-- A distance of the order, and a level at that distance from the price. -/
theorem minus_numeric {a b : Decimal} (ha : Decimal.IsNumeric a) (hb : Decimal.IsNumeric b) :
    a.minus b = a - b :=
  ha.1.minus_eq hb.1 ((numeric_sub_lt ha hb).trans (by norm_num))

theorem level_spec {a b : ℚ} (hprice : Decimal.IsNumeric price) (ha : Decimal.IsNumeric a)
    (hb : Decimal.IsNumeric b) : Decimal.InPlaces (price + (a - b)) ∧ |price + (a - b)| < 10 ^ 22 := by
  refine ⟨hprice.1.add (ha.1.sub hb.1), ?_⟩
  have hle := abs_add_le price (a - b)
  have hlt := numeric_sub_lt ha hb
  have hprice' := hprice.2
  linarith

theorem orderDistances_ok (h : orderDistances position = .ok distances) :
    distances = match position.side with
      | .buy => (position.orderEntry.minus position.orderStopLoss,
          position.orderTakeProfit.minus position.orderEntry)
      | .sell => (position.orderStopLoss.minus position.orderEntry,
          position.orderEntry.minus position.orderTakeProfit) := by
  simp only [orderDistances, bind_ok, require_ok, pure_ok] at h
  obtain ⟨entry, hentry, stop, hstop, target, htarget, -, -, rfl⟩ := h
  obtain ⟨rfl, -⟩ := positive_ok.mp hentry
  obtain ⟨rfl, -⟩ := positive_ok.mp hstop
  obtain ⟨rfl, -⟩ := positive_ok.mp htarget
  rfl

/-- The levels that are rounded are the exact ones. -/
theorem levels_exact (hstored : position.Stored) (hprice : Decimal.IsNumeric price)
    (h : orderDistances position = .ok distances) :
    (if position.strategyVersion = trendRetestVersion then position.orderStopLoss
      else if position.side = .buy then price.minus distances.1 else price.plus distances.1) =
      position.exactStop price ∧
    (if position.strategyVersion = trendRetestVersion then position.orderTakeProfit
      else if position.side = .buy then price.plus distances.2 else price.minus distances.2) =
      position.exactTarget price := by
  obtain ⟨-, hentry, hstop, htarget⟩ := hstored
  have hfits : ∀ {a b : Decimal}, Decimal.IsNumeric a → Decimal.IsNumeric b →
      price.minus (b - a) = price + (a - b) ∧ price.plus (a - b) = price + (a - b) := by
    intro a b ha hb
    obtain ⟨hplaces, hlt⟩ := level_spec hprice ha hb
    have hlt' : |price + (a - b)| < 10 ^ 30 := hlt.trans (by norm_num)
    refine ⟨?_, hprice.1.plus_eq (ha.1.sub hb.1) hlt'⟩
    rw [Decimal.minus, show price - (b - a) = price + (a - b) by ring]
    exact hplaces.truncate_eq hlt'
  rw [ProtectionPosition.exactStop, ProtectionPosition.exactTarget, orderDistances_ok h]
  split
  · exact ⟨rfl, rfl⟩
  cases position.side with
  | buy =>
    simp only [if_true]
    rw [minus_numeric hentry hstop, minus_numeric htarget hentry]
    exact ⟨(hfits hstop hentry).1, (hfits htarget hentry).2⟩
  | sell =>
    simp only [reduceCtorEq, if_false]
    rw [minus_numeric hstop hentry, minus_numeric hentry htarget]
    exact ⟨(hfits hstop hentry).2, (hfits htarget hentry).1⟩

/-! ### The plan -/

/-- What is held, where it is tighter than a level. -/
def expectedStop (side : OrderSide) (held : Option Decimal) (level : Decimal) : Decimal :=
  match held with
  | none => level
  | some held => if side = .buy then max held level else min held level

def expectedTarget (side : OrderSide) (held : Option Decimal) (level : Decimal) : Decimal :=
  match held with
  | none => level
  | some held => if side = .buy then min held level else max held level

theorem matchesPosition_entry {volume : Decimal}
    (h : matchesPosition position raw symbolId volume price = .ok ()) :
    position.entryPrice = some price := by
  simp only [matchesPosition, bind_ok, require_ok] at h
  obtain ⟨_, -, _, -, _, -, _, -, _, -, _, -, _, -, _, -, _, -, _, -, _, -, h⟩ := h
  exact h

/-- What a plan is made of, apart from what is held. -/
structure Planned (position : ProtectionPosition) (raw : BrokerPosition) (symbolId : String)
    (tick price : Decimal) (trade : Gateway.TradeData) (volumeText volume : Decimal)
    (distances : Decimal × Decimal) : Prop where
  htrade : Gateway.tradeDataOf raw.tradeData = .ok trade
  hvolumeText : trade.volume.required "volume" = .ok volumeText
  hvolume : positive (.value volumeText) = .ok volume
  hprice : positive raw.price = .ok price
  hmatching : matchesPosition position raw symbolId volume price = .ok ()
  htick : positive (.value tick) = .ok tick
  hdistances : orderDistances position = .ok distances
  hlabel : position.strategyVersion = trendRetestVersion →
    position.label = "ctrader-ai-scalper:" ++ trendRetestVersion

/-- How the held levels enter a plan. -/
structure Combined (position : ProtectionPosition) (raw : BrokerPosition) (tick price : Decimal)
    (plan : Plan) : Prop where
  stopLoss : actual tick raw.stopLoss = .ok plan.stopLoss
  takeProfit : actual tick raw.takeProfit = .ok plan.takeProfit
  stop : plan.expectedStopLoss = expectedStop position.side plan.stopLoss
    (onTick tick (position.side = .buy) (position.exactStop price))
  target : plan.expectedTakeProfit = expectedTarget position.side plan.takeProfit
    (onTick tick (!decide (position.side = .buy)) (position.exactTarget price))
  stopPos : 0 < plan.expectedStopLoss
  targetPos : 0 < plan.expectedTakeProfit
  repair : plan.repair = decide (plan.stopLoss ≠ some plan.expectedStopLoss ∨
    plan.takeProfit ≠ some plan.expectedTakeProfit)

/-- The levels of `protectionPlan` as they are computed. -/
theorem levels_computed (hstored : position.Stored) (hentry : position.entryPrice = some price)
    (h : orderDistances position = .ok distances) :
    (if (decide (position.strategyVersion = trendRetestVersion) = true) then position.orderStopLoss
      else if (decide (position.side = .buy) = true) then price.minus distances.1
      else price.plus distances.1) = position.exactStop price ∧
    (if (decide (position.strategyVersion = trendRetestVersion) = true) then
        position.orderTakeProfit
      else if (decide (position.side = .buy) = true) then price.plus distances.2
      else price.minus distances.2) = position.exactTarget price := by
  simp only [decide_eq_true_eq]
  exact levels_exact hstored (hstored.entry price hentry) h

theorem planned_of_plan (hstored : position.Stored)
    (h : protectionPlan position raw symbolId tick = .ok plan) :
    ∃ price trade volumeText distances,
      Planned position raw symbolId tick price trade volumeText plan.volume distances ∧
      Combined position raw tick price plan := by
  simp only [protectionPlan, bind_ok, pure_ok] at h
  obtain ⟨trade, htrade, volumeText, hvolumeText, volume, hvolume, price, hprice, _, hmatching,
    tick', htick, distances, hdistances, stopLoss, hsl, takeProfit, htp, _, hlabel, _, hslPos, _,
    htpPos, rfl⟩ := h
  obtain ⟨rfl, -⟩ := positive_ok.mp htick
  obtain ⟨hstop, htarget⟩ := levels_computed hstored (matchesPosition_entry hmatching) hdistances
  rw [hstop] at hslPos
  rw [htarget] at htpPos
  rw [require_ok] at hlabel
  refine ⟨price, trade, volumeText, distances, ⟨htrade, hvolumeText, hvolume, hprice, hmatching,
    htick, hdistances, by simpa using hlabel⟩, ⟨hsl, htp, ?_, ?_, ?_, ?_, ?_⟩⟩
  · rw [hstop]
    cases stopLoss <;> simp [expectedStop]
  · rw [htarget]
    cases takeProfit <;> simp [expectedTarget]
  · rw [hstop]
    exact (positive_ok.mp hslPos).2
  · rw [htarget]
    exact (positive_ok.mp htpPos).2
  · rfl

theorem plan_of_planned (hstored : position.Stored) {trade : Gateway.TradeData}
    {volumeText : Decimal}
    (h : Planned position raw symbolId tick price trade volumeText plan.volume distances)
    (h' : Combined position raw tick price plan) :
    protectionPlan position raw symbolId tick = .ok plan := by
  obtain ⟨hstop, htarget⟩ :=
    levels_computed hstored (matchesPosition_entry h.hmatching) h.hdistances
  have hlabel : decide (position.strategyVersion = trendRetestVersion) = true →
      position.label = "ctrader-ai-scalper:" ++ trendRetestVersion := by
    intro hversion
    exact h.hlabel (of_decide_eq_true hversion)
  obtain ⟨stopLoss, takeProfit, stop, target, volume, repair⟩ := plan
  obtain ⟨hsl, htp, hs, ht, hstopPos, htargetPos, hrepair⟩ := h'
  dsimp only at h hsl htp hs ht hstopPos htargetPos hrepair
  subst hs ht
  rw [protectionPlan, h.htrade, ok_bind, h.hvolumeText, ok_bind, h.hvolume, ok_bind, h.hprice,
    ok_bind, h.hmatching, ok_bind, h.htick, ok_bind, h.hdistances, ok_bind, hsl, ok_bind, htp, ok_bind]
  dsimp only
  rw [require_eq hlabel, ok_bind, hstop, htarget]
  cases stopLoss <;> cases takeProfit
  all_goals
    simp only [expectedStop, expectedTarget, decide_eq_true_eq] at hstopPos htargetPos ⊢
    rw [positive_ok.mpr ⟨rfl, hstopPos⟩, ok_bind, positive_ok.mpr ⟨rfl, htargetPos⟩, ok_bind, hrepair]
    rfl

/-! ### The laws of a plan -/

theorem tighter_trans {side : OrderSide} {a b c : ℚ} (h : Tighter side a b) (h' : Tighter side b c) :
    Tighter side a c := by
  cases side with
  | buy => exact le_trans h h'
  | sell => exact le_trans h' h

/-- The tighter one of what is held and a level. -/
theorem expectedStop_spec (side : OrderSide) (held : Option Decimal) (level : Decimal) :
    Tighter side level (expectedStop side held level) ∧
      (∀ h, held = some h → Tighter side h (expectedStop side held level)) ∧
      (expectedStop side held level = level ∨ held = some (expectedStop side held level)) := by
  cases held with
  | none => exact ⟨by cases side <;> exact le_rfl, nofun, .inl rfl⟩
  | some h =>
    cases side with
    | buy =>
      refine ⟨le_max_right h level, fun _ heq => ?_, ?_⟩
      · obtain rfl := Option.some.inj heq
        exact le_max_left h level
      · rcases max_choice h level with hmax | hmax
        · exact .inr (by simp [expectedStop, hmax])
        · exact .inl (by simp [expectedStop, hmax])
    | sell =>
      refine ⟨min_le_right h level, fun _ heq => ?_, ?_⟩
      · obtain rfl := Option.some.inj heq
        exact min_le_left h level
      · rcases min_choice h level with hmin | hmin
        · exact .inr (by simp [expectedStop, hmin])
        · exact .inl (by simp [expectedStop, hmin])

/-- A target of one side is a stop of the other. -/
theorem expectedTarget_eq (side : OrderSide) (held : Option Decimal) (level : Decimal) :
    expectedTarget side held level =
      expectedStop (match side with | .buy => .sell | .sell => .buy) held level := by
  cases held <;> cases side <;> rfl

theorem expectedTarget_spec (side : OrderSide) (held : Option Decimal) (level : Decimal) :
    Tighter side (expectedTarget side held level) level ∧
      (∀ h, held = some h → Tighter side (expectedTarget side held level) h) ∧
      (expectedTarget side held level = level ∨ held = some (expectedTarget side held level)) := by
  rw [expectedTarget_eq]
  cases side with
  | buy => exact expectedStop_spec .sell held level
  | sell => exact expectedStop_spec .buy held level

/-- What a plan for a position filled at a price asks for. -/
structure Plan.Lawful (position : ProtectionPosition) (raw : BrokerPosition) (symbolId : String)
    (tick price : Decimal) (plan : Plan) : Prop where
  stopKept : ∀ held, plan.stopLoss = some held → Tighter position.side held plan.expectedStopLoss
  targetKept : ∀ held, plan.takeProfit = some held →
    Tighter position.side plan.expectedTakeProfit held
  stopGrid : ∃ n : ℤ, plan.expectedStopLoss = n * tick
  targetGrid : ∃ n : ℤ, plan.expectedTakeProfit = n * tick
  stopInward : Tighter position.side (position.exactStop price) plan.expectedStopLoss
  targetInward : Tighter position.side plan.expectedTakeProfit (position.exactTarget price)
  /-- within one tick of the exact level, unless what is held is kept -/
  stopNear : plan.stopLoss = some plan.expectedStopLoss ∨
    |plan.expectedStopLoss - position.exactStop price| < tick
  targetNear : plan.takeProfit = some plan.expectedTakeProfit ∨
    |plan.expectedTakeProfit - position.exactTarget price| < tick
  /-- on the protective side of the entry, unless what is held is kept -/
  protective : plan.stopLoss = some plan.expectedStopLoss ∨ match position.side with
    | .buy => position.exactStop price + tick ≤ price → plan.expectedStopLoss < price
    | .sell => price + tick ≤ position.exactStop price → price < plan.expectedStopLoss
  fixpoint : ∃ again, protectionPlan position
    { raw with
      stopLoss := .value plan.expectedStopLoss
      takeProfit := .value plan.expectedTakeProfit } symbolId tick = .ok again ∧
    again.repair = false ∧ again.expectedStopLoss = plan.expectedStopLoss ∧
    again.expectedTakeProfit = plan.expectedTakeProfit

theorem exact_places (hstored : position.Stored) (hprice : Decimal.IsNumeric price) :
    (Decimal.InPlaces (position.exactStop price) ∧ |position.exactStop price| < 10 ^ 22) ∧
      Decimal.InPlaces (position.exactTarget price) ∧ |position.exactTarget price| < 10 ^ 22 := by
  obtain ⟨-, hentry, hstop, htarget⟩ := hstored
  rw [ProtectionPosition.exactStop, ProtectionPosition.exactTarget]
  split
  · exact ⟨⟨hstop.1, hstop.2.trans (by norm_num)⟩, htarget.1, htarget.2.trans (by norm_num)⟩
  · exact ⟨level_spec hprice hstop hentry, level_spec hprice htarget hentry⟩

/-- The rounded levels are on the grid, on the inner side of the exact ones and near them. -/
theorem rounded_spec (side : OrderSide) (htick : Decimal.IsNumeric tick) (hpos : 0 < tick)
    (hx : Decimal.InPlaces x ∧ |x| < 10 ^ 22) :
    ((∃ n : ℤ, onTick tick (side = .buy) x = n * tick) ∧
      Tighter side x (onTick tick (side = .buy) x) ∧ |onTick tick (side = .buy) x - x| < tick) ∧
    (∃ n : ℤ, onTick tick (!decide (side = .buy)) x = n * tick) ∧
      Tighter side (onTick tick (!decide (side = .buy)) x) x ∧
      |onTick tick (!decide (side = .buy)) x - x| < tick := by
  obtain ⟨hup, hge, hlt⟩ := onTick_spec htick hpos hx.1 hx.2 true
  obtain ⟨hdown, hle, hgt⟩ := onTick_spec htick hpos hx.1 hx.2 false
  have hnear : |onTick tick true x - x| < tick := abs_lt.mpr ⟨by linarith, by linarith⟩
  have hnear' : |onTick tick false x - x| < tick := abs_lt.mpr ⟨by linarith, by linarith⟩
  cases side with
  | buy => exact ⟨⟨hup, hge, hnear⟩, hdown, hle, hnear'⟩
  | sell => exact ⟨⟨hdown, hle, hnear'⟩, hup, hge, hnear⟩

theorem expectedStop_of_tighter {side : OrderSide} {held level : Decimal}
    (h : Tighter side level held) : expectedStop side (some held) level = held := by
  cases side with
  | buy => exact max_eq_left h
  | sell => exact min_eq_left h

theorem expectedTarget_of_tighter {side : OrderSide} {held level : Decimal}
    (h : Tighter side held level) : expectedTarget side (some held) level = held := by
  cases side with
  | buy => exact min_eq_left h
  | sell => exact max_eq_left h

/-- Planning again with the expected levels in place. -/
theorem plan_again (hstored : position.Stored) {trade : Gateway.TradeData} {volumeText : Decimal}
    (h : Planned position raw symbolId tick price trade volumeText plan.volume distances)
    (h' : Combined position raw tick price plan) (hpos : 0 < tick)
    (hstop : ∃ n : ℤ, plan.expectedStopLoss = n * tick)
    (htarget : ∃ n : ℤ, plan.expectedTakeProfit = n * tick) :
    protectionPlan position
      { raw with
        stopLoss := .value plan.expectedStopLoss
        takeProfit := .value plan.expectedTakeProfit } symbolId tick = .ok
      { plan with
        stopLoss := some plan.expectedStopLoss
        takeProfit := some plan.expectedTakeProfit
        repair := false } := by
  refine plan_of_planned hstored ⟨h.htrade, h.hvolumeText, h.hvolume, h.hprice, h.hmatching, h.htick,
    h.hdistances, h.hlabel⟩ ⟨actual_of_grid hpos h'.stopPos hstop,
    actual_of_grid hpos h'.targetPos htarget, ?_, ?_, h'.stopPos, h'.targetPos, by simp⟩
  · refine (expectedStop_of_tighter ?_).symm
    rw [h'.stop]
    exact (expectedStop_spec _ _ _).1
  · refine (expectedTarget_of_tighter ?_).symm
    rw [h'.target]
    exact (expectedTarget_spec _ _ _).1

/-- A plan for stored prices never widens what is held, asks for prices of the grid that lie inward of
    the exact levels and within a tick of them unless a tighter one is held, keeps the stop on its
    side of the entry, and asks for nothing once they are in place. -/
theorem protectionPlan_lawful (hstored : position.Stored) (htick : Decimal.IsNumeric tick)
    (h : protectionPlan position raw symbolId tick = .ok plan) :
    ∃ price, position.entryPrice = some price ∧ plan.Lawful position raw symbolId tick price := by
  obtain ⟨price, trade, volumeText, distances, hplanned, hcombined⟩ := planned_of_plan hstored h
  have hentry := matchesPosition_entry hplanned.hmatching
  have hpos := (positive_ok.mp hplanned.htick).2
  obtain ⟨hstopPlaces, htargetPlaces⟩ := exact_places hstored (hstored.entry price hentry)
  obtain ⟨hstopGrid, hstopInward, hstopNear⟩ :=
    (rounded_spec position.side htick hpos hstopPlaces).1
  obtain ⟨htargetGrid, htargetInward, htargetNear⟩ :=
    (rounded_spec position.side htick hpos htargetPlaces).2
  obtain ⟨hstopLevel, hstopKept, hstopOr⟩ := expectedStop_spec position.side plan.stopLoss
    (onTick tick (position.side = .buy) (position.exactStop price))
  obtain ⟨htargetLevel, htargetKept, htargetOr⟩ := expectedTarget_spec position.side plan.takeProfit
    (onTick tick (!decide (position.side = .buy)) (position.exactTarget price))
  rw [← hcombined.stop] at hstopLevel hstopKept hstopOr
  rw [← hcombined.target] at htargetLevel htargetKept htargetOr
  have hgrid : ∃ n : ℤ, plan.expectedStopLoss = n * tick := by
    rcases hstopOr with heq | hheld
    · rw [heq]
      exact hstopGrid
    · exact actual_grid (hcombined.stopLoss.trans (by rw [hheld])) hpos
  have hgrid' : ∃ n : ℤ, plan.expectedTakeProfit = n * tick := by
    rcases htargetOr with heq | hheld
    · rw [heq]
      exact htargetGrid
    · exact actual_grid (hcombined.takeProfit.trans (by rw [hheld])) hpos
  refine ⟨price, hentry, hstopKept, htargetKept, hgrid, hgrid', tighter_trans hstopInward hstopLevel,
    tighter_trans htargetLevel htargetInward, hstopOr.symm.imp_right fun heq => ?_,
    htargetOr.symm.imp_right fun heq => ?_, hstopOr.symm.imp_right fun heq => ?_, _,
    plan_again hstored hplanned hcombined hpos hgrid hgrid', rfl, rfl, rfl⟩
  · rwa [heq]
  · rwa [heq]
  · rw [heq]
    obtain ⟨hlow, hhigh⟩ := abs_lt.mp hstopNear
    cases hside : position.side with
    | buy =>
      rw [hside] at hhigh
      intro hle
      linarith
    | sell =>
      rw [hside] at hlow
      intro hle
      linarith

namespace PlanSample

def filled : ProtectionPosition where
  strategyVersion := "0.9.0-cost-balanced.1-codex.2"
  id := 1
  brokerPositionId := "7"
  side := .buy
  volume := 1000
  entryPrice := some 100
  orderEntry := 100
  orderStopLoss := 99
  orderTakeProfit := 101
  label := "ctrader-ai-scalper:0.9.0"
  repairAttempts := 0
  commandAt := none
  closeRequestedAt := none

/-- The broker holds a stop above the entry, and no target. -/
def held : BrokerPosition where
  tradeData := some {
    symbolId := .value "41"
    label := .value "ctrader-ai-scalper:0.9.0"
    volume := .value 1000
    tradeSide := .value 1 }
  positionId := .value "7"
  positionStatus := .value 1
  price := .value 100
  stopLoss := .value (201 / 2)

def heldPlan : Plan := ⟨some (201 / 2), none, 201 / 2, 101, 1000, true⟩

theorem isNumeric_natCast {n : ℕ} (h : n < 10 ^ 20) : Decimal.IsNumeric n := by
  refine ⟨⟨n * 10 ^ 10, ?_⟩, ?_⟩
  · rw [Int.cast_mul, Int.cast_natCast, Int.cast_pow, Int.cast_ofNat,
      mul_div_cancel_right₀ _ (by norm_num)]
  · rw [abs_of_nonneg (by positivity)]
    exact_mod_cast h

theorem filled_stored : filled.Stored where
  entry := by
    rintro price ⟨⟩
    exact isNumeric_natCast (n := 100) (by norm_num)
  orderEntry := isNumeric_natCast (n := 100) (by norm_num)
  orderStopLoss := isNumeric_natCast (n := 99) (by norm_num)
  orderTakeProfit := isNumeric_natCast (n := 101) (by norm_num)

theorem tick_numeric : Decimal.IsNumeric (1 / 100) :=
  ⟨⟨10 ^ 8, by norm_num⟩, by rw [abs_of_pos (by norm_num)]; norm_num⟩

end PlanSample

theorem protectionPlan_lawful_heldStop : ∃ price, PlanSample.filled.entryPrice = some price ∧
    PlanSample.heldPlan.Lawful PlanSample.filled PlanSample.held "41" (1 / 100) price :=
  protectionPlan_lawful PlanSample.filled_stored PlanSample.tick_numeric (by decide +kernel)

/-- A stop that is held beyond the entry stays there, further than one tick from the exact one. -/
theorem held_stop_beyond_entry :
    protectionPlan PlanSample.filled PlanSample.held "41" (1 / 100) = .ok PlanSample.heldPlan ∧
      PlanSample.heldPlan.repair ∧ PlanSample.filled.entryPrice = some 100 ∧
      ¬ PlanSample.heldPlan.expectedStopLoss < 100 ∧
      ¬ |PlanSample.heldPlan.expectedStopLoss - PlanSample.filled.exactStop 100| < 1 / 100 := by
  decide +kernel

end ScalpingBot.Protection
