import ScalpingBot.Model.Validator

/-! The execution bounds that apps/execution-service/src/model-execution-bounds.ts gives to the
    model, and their agreement with the checks of a proposed leg. -/

namespace ScalpingBot.Model

open Decimal (InPlaces)
open Scenario (isTickAligned)
open Significant (Fits fits_nat truncate_le)

structure ModelExecutionBounds where
  buyEntryMinimum : Decimal
  buyEntryMaximum : Decimal
  sellEntryMinimum : Decimal
  sellEntryMaximum : Decimal
  buyPreferredEntryMinimum : Decimal
  buyPreferredEntryMaximum : Decimal
  sellPreferredEntryMinimum : Decimal
  sellPreferredEntryMaximum : Decimal
  entryLatencyBufferAtr : Decimal
  preferredMaxEntryDistanceAtr : Decimal
  minimumStopDistance : Decimal
  maximumStopDistance : Decimal
  preferredExpiresAt : ℤ
  deriving DecidableEq

/-- The argument of `deriveModelExecutionBounds`; a text that is no instant is `none`. -/
structure BoundsInput where
  entryPairMode : Bool := false
  currentBid : Decimal
  currentAsk : Decimal
  tickSize : Decimal
  minimumStopDistance : Decimal
  atr : Decimal
  maxEntryDistanceAtr : Decimal
  entryLatencyBufferAtr : Decimal
  preferredMaxEntryDistanceAtr : Decimal
  maxStopDistanceAtr : Decimal
  maxAffordableStopDistance : Decimal
  serverTime : Option ℤ
  preferredExpirySeconds : ℤ

def floorToTick (value tickSize : Decimal) : Decimal :=
  (⌊value.div tickSize⌋ : Decimal).times tickSize

def ceilToTick (value tickSize : Decimal) : Decimal :=
  (⌈value.div tickSize⌉ : Decimal).times tickSize

/-- `Number.isSafeInteger`. -/
def isSafeInteger (n : ℤ) : Bool := |n| < 2 ^ 53

/-- `new Date(..).toISOString()`. -/
def toISOString (time : Option ℤ) : Except String ℤ :=
  match time with
  | some time => do
    require (|time| ≤ 8640000000000000) "Invalid time value"
    return time
  | none => .error "Invalid time value"

/-- The bounds of the pair mode: one price for each side. -/
def pairBounds (input : BoundsInput) (bid ask tickSize minimumStopDistance : Decimal) :
    Except String ModelExecutionBounds := do
  let buy := ceilToTick (ask.plus minimumStopDistance) tickSize
  let sell := floorToTick (bid.minus minimumStopDistance) tickSize
  let maxAffordable ← decimal input.maxAffordableStopDistance
  let expiresAt ← toISOString (input.serverTime.map (· + input.preferredExpirySeconds * 1000))
  return {
    buyEntryMinimum := buy
    buyEntryMaximum := buy
    sellEntryMinimum := sell
    sellEntryMaximum := sell
    buyPreferredEntryMinimum := buy
    buyPreferredEntryMaximum := buy
    sellPreferredEntryMinimum := sell
    sellPreferredEntryMaximum := sell
    entryLatencyBufferAtr := 0
    preferredMaxEntryDistanceAtr := 0
    minimumStopDistance := minimumStopDistance
    maximumStopDistance := floorToTick maxAffordable tickSize
    preferredExpiresAt := expiresAt }

/-- `preferredExpiresAt`, with its checks. -/
def expiryBound (serverTime : Option ℤ) (seconds : ℤ) : Except String ℤ :=
  match serverTime with
  | some time => do
    require (0 ≤ time ∧ isSafeInteger seconds ∧ 1 ≤ seconds) "MODEL_EXPIRY_BOUND_INVALID"
    require (isSafeInteger (time + seconds * 1000)) "MODEL_EXPIRY_BOUND_INVALID"
    toISOString (some (time + seconds * 1000))
  | none => .error "MODEL_EXPIRY_BOUND_INVALID"

/-- The bounds of the range mode. -/
def rangeBounds (input : BoundsInput) (bid ask tickSize minimumStopDistance : Decimal) :
    Except String ModelExecutionBounds := do
  let atr ← decimal input.atr
  let maximumEntryDistance := atr.times (← decimal input.maxEntryDistanceAtr)
  let entryLatencyBufferAtr ← decimal input.entryLatencyBufferAtr
  let preferredMaxEntryDistanceAtr ← decimal input.preferredMaxEntryDistanceAtr
  let preferredMaximumDistance := atr.times preferredMaxEntryDistanceAtr
  let maxStopDistanceAtr ← decimal input.maxStopDistanceAtr
  let maxAffordable ← decimal input.maxAffordableStopDistance
  let maximumStopDistance :=
    floorToTick (min (atr.times maxStopDistanceAtr) maxAffordable) tickSize
  let buyMinimum := ceilToTick (ask.plus minimumStopDistance) tickSize
  let buyMaximum := floorToTick (ask.plus maximumEntryDistance) tickSize
  let sellMinimum := ceilToTick (bid.minus maximumEntryDistance) tickSize
  let sellMaximum := floorToTick (bid.minus minimumStopDistance) tickSize
  require (buyMinimum ≤ buyMaximum ∧ sellMinimum ≤ sellMaximum) "MODEL_ENTRY_RANGE_UNSATISFIABLE"
  let preferredMinimumDistance := max minimumStopDistance (atr.times entryLatencyBufferAtr)
  let buyPreferredMinimum := ceilToTick (ask.plus preferredMinimumDistance) tickSize
  let buyPreferredMaximum := floorToTick (ask.plus preferredMaximumDistance) tickSize
  let sellPreferredMinimum := ceilToTick (bid.minus preferredMaximumDistance) tickSize
  let sellPreferredMaximum := floorToTick (bid.minus preferredMinimumDistance) tickSize
  require (buyPreferredMinimum ≤ buyPreferredMaximum ∧ sellPreferredMinimum ≤ sellPreferredMaximum ∧
    buyMinimum ≤ buyPreferredMinimum ∧ buyPreferredMaximum ≤ buyMaximum ∧
    sellMinimum ≤ sellPreferredMinimum ∧ sellPreferredMaximum ≤ sellMaximum)
    "MODEL_PREFERRED_ENTRY_RANGE_UNSATISFIABLE"
  let modelMinimumStopDistance := ceilToTick minimumStopDistance tickSize
  require (modelMinimumStopDistance ≤ maximumStopDistance) "MODEL_STOP_RANGE_UNSATISFIABLE"
  let preferredExpiresAt ← expiryBound input.serverTime input.preferredExpirySeconds
  return {
    buyEntryMinimum := buyMinimum
    buyEntryMaximum := buyMaximum
    sellEntryMinimum := sellMinimum
    sellEntryMaximum := sellMaximum
    buyPreferredEntryMinimum := buyPreferredMinimum
    buyPreferredEntryMaximum := buyPreferredMaximum
    sellPreferredEntryMinimum := sellPreferredMinimum
    sellPreferredEntryMaximum := sellPreferredMaximum
    entryLatencyBufferAtr := entryLatencyBufferAtr
    preferredMaxEntryDistanceAtr := preferredMaxEntryDistanceAtr
    minimumStopDistance := modelMinimumStopDistance
    maximumStopDistance := maximumStopDistance
    preferredExpiresAt := preferredExpiresAt }

def deriveModelExecutionBounds (input : BoundsInput) : Except String ModelExecutionBounds := do
  let bid ← decimal input.currentBid
  let ask ← decimal input.currentAsk
  let tickSize ← decimal input.tickSize
  let minimumStopDistance ← decimal input.minimumStopDistance
  if input.entryPairMode then
    pairBounds input bid ask tickSize minimumStopDistance
  else
    rangeBounds input bid ask tickSize minimumStopDistance

/-! ### Rounding to the grid -/

/-- A price or a distance on the grid: a text and a whole number of ticks. -/
structure OnGrid (tick value : Decimal) : Prop where
  text : isDecimalText value
  steps : ∃ n : ℕ, n < 10 ^ 26 ∧ value = n * tick

variable {tick value : Decimal}

theorem onGrid_of_aligned (htick : isDecimalText tick) (htext : isDecimalText value)
    (h : isTickAligned value tick) : 0 < tick ∧ OnGrid tick value := by
  simp only [isTickAligned, Bool.decide_and, Bool.and_eq_true, decide_eq_true_eq] at h
  obtain ⟨hpos, hden⟩ := h
  obtain ⟨hnonneg, hlt⟩ := text_bounds htext
  have hsteps := Rat.coe_int_num_of_den_eq_one hden
  obtain ⟨n, hn⟩ := Int.eq_ofNat_of_zero_le (Rat.num_nonneg.mpr (div_nonneg hnonneg hpos.le))
  rw [hn, Int.cast_natCast, eq_div_iff hpos.ne'] at hsteps
  refine ⟨hpos, htext, n, ?_, hsteps.symm⟩
  obtain ⟨t, -, ht⟩ := isDecimalText_iff.mp htick
  have hunit : 1 ≤ t := by
    rcases Nat.eq_zero_or_pos t with rfl | ht'
    · norm_num [ht] at hpos
    · exact ht'
  have hcount : ((n * t : ℕ) : ℚ) < ((10 ^ 26 : ℕ) : ℚ) := by
    rw [ht, mul_div_assoc'] at hsteps
    rw [← hsteps, div_lt_iff₀ (by norm_num)] at hlt
    push_cast
    linarith
  have hlt' : n * t < 10 ^ 26 := by exact_mod_cast hcount
  nlinarith

/-- A value of the grid is below the floor of a limit exactly if it is below the limit. -/
theorem le_floorToTick_iff (hpos : 0 < tick) (h : OnGrid tick value) (limit : Decimal) :
    value ≤ floorToTick limit tick ↔ value ≤ limit := by
  obtain ⟨n, hn, hsteps⟩ := h.steps
  have hcount : Fits 40 (n : ℚ) := by
    have hfits : Fits 40 ((n : ℚ) / 10 ^ 0) := fits_nat (by omega)
    rwa [pow_zero, div_one] at hfits
  rw [floorToTick, Decimal.times, Decimal.precision,
    (text_fits h.text).le_truncate_iff (by decide) (text_bounds h.text).1, hsteps,
    mul_le_mul_iff_left₀ hpos, ← Int.cast_natCast, Int.cast_le, Int.le_floor, Int.cast_natCast,
    Decimal.div, Decimal.precision, hcount.le_truncate_iff (by decide) (Nat.cast_nonneg n),
    le_div_iff₀ hpos]

/-- A value of the grid is above the ceiling of a limit of at most 37 digits exactly if it is above
    the limit. -/
theorem ceilToTick_le_iff (htick : isDecimalText tick) (hpos : 0 < tick) (h : OnGrid tick value)
    {limit : Decimal} (hlimit : ∃ a : ℕ, a < 10 ^ 37 ∧ limit = a / 10 ^ 20) :
    ceilToTick limit tick ≤ value ↔ limit ≤ value := by
  obtain ⟨n, hn, hsteps⟩ := h.steps
  obtain ⟨a, ha, rfl⟩ := hlimit
  obtain ⟨t, ht, rfl⟩ := isDecimalText_iff.mp htick
  have htPos : 0 < t := by
    rcases Nat.eq_zero_or_pos t with rfl | ht'
    · norm_num at hpos
    · exact ht'
  have hquotient : (a / 10 ^ 20 : ℚ) / (t / 10 ^ 10) = ((a : ℤ) : ℚ) / ((t * 10 ^ 10 : ℕ) : ℚ) := by
    push_cast
    field_simp
    norm_num
  have hceil : ⌈Decimal.div (a / 10 ^ 20) (t / 10 ^ 10)⌉ =
      ⌈(a / 10 ^ 20 : ℚ) / (t / 10 ^ 10)⌉ := by
    rw [Decimal.div, hquotient]
    refine (Significant.floor_ceil_truncate (by positivity) ?_ (by decide)).2
    rw [Nat.abs_cast]
    have hcast : (a : ℤ) < 10 ^ 37 := by exact_mod_cast ha
    rw [Decimal.precision]
    linarith
  set q : ℚ := (a / 10 ^ 20 : ℚ) / (t / 10 ^ 10) with hq
  have hqNonneg : 0 ≤ q := by positivity
  have hproduct : (⌈q⌉ : ℚ) * (t / 10 ^ 10) < 10 ^ 30 := by
    have hlt := Int.ceil_lt_add_one q
    have htLt : (t : ℚ) / 10 ^ 10 < 10 ^ 16 := (text_bounds htick).2
    have haLt : (a : ℚ) / 10 ^ 20 < 10 ^ 17 := by
      rw [div_lt_iff₀ (by norm_num)]
      have hcast : (a : ℚ) < ((10 ^ 37 : ℕ) : ℚ) := by exact_mod_cast ha
      push_cast at hcast
      linarith
    calc (⌈q⌉ : ℚ) * (t / 10 ^ 10) ≤ (q + 1) * (t / 10 ^ 10) :=
          mul_le_mul_of_nonneg_right hlt.le hpos.le
      _ = a / 10 ^ 20 + t / 10 ^ 10 := by
        rw [hq, add_mul, div_mul_cancel₀ _ hpos.ne', one_mul]
      _ < 10 ^ 30 := by linarith
  have hceilNonneg : (0 : ℚ) ≤ ⌈q⌉ := by exact_mod_cast Int.ceil_nonneg hqNonneg
  rw [ceilToTick, hceil, Decimal.times, ((text_inPlaces htick).intMul ⌈q⌉).truncate_eq
      (by rwa [abs_of_nonneg (mul_nonneg hceilNonneg hpos.le)]),
    hsteps, mul_le_mul_iff_left₀ hpos, ← Int.cast_natCast, Int.cast_le, Int.ceil_le,
    Int.cast_natCast, hq, div_le_iff₀ hpos]

/-- Nothing on the grid is below the ceiling of a limit that is not positive. -/
theorem ceilToTick_nonpos (hpos : 0 < tick) {limit : Decimal} (hlimit : limit ≤ 0) :
    ceilToTick limit tick ≤ 0 := by
  have hquotient : limit.div tick ≤ 0 :=
    Significant.truncate_nonpos (div_nonpos_of_nonpos_of_nonneg hlimit hpos.le)
  have hceil : ⌈limit.div tick⌉ ≤ 0 := Int.ceil_le.mpr (by exact_mod_cast hquotient)
  have hcast : (⌈limit.div tick⌉ : ℚ) ≤ 0 := by exact_mod_cast hceil
  exact Significant.truncate_nonpos (mul_nonpos_of_nonpos_of_nonneg hcast hpos.le)

/-! ### The reasons of `checkLeg` -/

/-- The quote, the symbol and the limits of the bounds, as the checks of a leg read them. -/
structure SameConfiguration (input : BoundsInput) (context : SemanticContext) : Prop where
  strategyLimits : context.enforceStrategyLimits = true
  brackets : context.entryBrackets = .stop
  bid : context.quote.bid = input.currentBid
  ask : context.quote.ask = input.currentAsk
  tickSize : context.metadata.tickSize = input.tickSize
  minimumStopDistance : minDistance context.metadata context.minStopDistancePoints =
    .ok input.minimumStopDistance
  atr : context.atr = input.atr
  maxEntryDistanceAtr : context.maxEntryDistanceAtr = some input.maxEntryDistanceAtr
  maxStopDistanceAtr : context.maxStopDistanceAtr = input.maxStopDistanceAtr
  maxAffordableStopDistance :
    context.maxAffordableStopDistance = some input.maxAffordableStopDistance

/-- What `checkLeg` compares to find an entry too close to the quote. -/
def BoundsInput.TooClose (input : BoundsInput) (entry : Decimal) : OrderSide → Prop
  | .buy => entry < input.currentAsk.plus input.minimumStopDistance
  | .sell => input.currentBid.minus input.minimumStopDistance < entry

/-- What `checkLeg` compares to find an entry too far from the quote. -/
def BoundsInput.TooFar (input : BoundsInput) (entry : Decimal) : OrderSide → Prop
  | .buy => input.atr.times input.maxEntryDistanceAtr < entry.minus input.currentAsk
  | .sell => input.atr.times input.maxEntryDistanceAtr < input.currentBid.minus entry

/-- When `checkLeg` gives the reasons that the bounds are about. -/
theorem checkLeg_reasons {side : OrderSide} {proposal : Proposal} {context : SemanticContext}
    {input : BoundsInput} {reasons : List String} (hsame : SameConfiguration input context)
    (h : checkLeg side proposal context = .ok reasons) :
    isDecimalText proposal.entryPrice ∧ isDecimalText proposal.stopLoss ∧
    (side.text ++ "_ENTRY_TOO_CLOSE" ∈ reasons ↔ input.TooClose proposal.entryPrice side) ∧
    (side.text ++ "_ENTRY_DISTANCE_ATR_EXCEEDED" ∈ reasons ↔
      input.TooFar proposal.entryPrice side) ∧
    (side.text ++ "_STOP_DISTANCE_TOO_SMALL" ∈ reasons ↔
      |proposal.entryPrice.minus proposal.stopLoss| < input.minimumStopDistance) ∧
    (side.text ++ "_STOP_DISTANCE_EXCESSIVE" ∈ reasons ↔
      input.atr.times input.maxStopDistanceAtr < |proposal.entryPrice.minus proposal.stopLoss|) ∧
    (side.text ++ "_STOP_DISTANCE_UNAFFORDABLE_AT_MIN_VOLUME" ∈ reasons ↔
      input.maxAffordableStopDistance < |proposal.entryPrice.minus proposal.stopLoss|) := by
  simp only [checkLeg, bind_ok, decimal_ok, pure_ok, hsame.minimumStopDistance,
    SemanticContext.maximumEntryDistance, SemanticContext.maximumStopDistance,
    hsame.strategyLimits, hsame.maxEntryDistanceAtr, hsame.maxAffordableStopDistance,
    optionalDecimal, if_true, Except.ok.injEq] at h
  obtain ⟨_, ⟨rfl, hentry⟩, _, -, _, ⟨rfl, hstop⟩, _, ⟨rfl, -⟩, _, ⟨rfl, -⟩, _, -, _, rfl, _,
    ⟨rfl, -⟩, _, ⟨rfl, -⟩, _, ⟨_, ⟨rfl, -⟩, _, ⟨rfl, -⟩, rfl⟩, _, ⟨rfl, -⟩, _, ⟨rfl, -⟩, _,
    ⟨_, ⟨rfl, -⟩, _, ⟨rfl, -⟩, rfl⟩, _, ⟨_, ⟨rfl, -⟩, rfl⟩, rfl⟩ := h
  refine ⟨hentry, hstop, ?_⟩
  rw [hsame.brackets, hsame.bid, hsame.ask, hsame.atr, hsame.maxStopDistanceAtr]
  cases side with
  | buy => simp [levelReasons, distanceReasons, OrderSide.text, BoundsInput.TooClose,
      BoundsInput.TooFar]
  | sell => simp [levelReasons, distanceReasons, OrderSide.text, BoundsInput.TooClose,
      BoundsInput.TooFar]

/-! ### Agreement -/

namespace ModelExecutionBounds

variable (bounds : ModelExecutionBounds)

def entryMinimum : OrderSide → Decimal
  | .buy => bounds.buyEntryMinimum
  | .sell => bounds.sellEntryMinimum

def entryMaximum : OrderSide → Decimal
  | .buy => bounds.buyEntryMaximum
  | .sell => bounds.sellEntryMaximum

def preferredEntryMinimum : OrderSide → Decimal
  | .buy => bounds.buyPreferredEntryMinimum
  | .sell => bounds.sellPreferredEntryMinimum

def preferredEntryMaximum : OrderSide → Decimal
  | .buy => bounds.buyPreferredEntryMaximum
  | .sell => bounds.sellPreferredEntryMaximum

end ModelExecutionBounds

/-- What the range mode has read, and the bounds that it returns. -/
structure RangeOf (input : BoundsInput) (bounds : ModelExecutionBounds) : Prop where
  bid : isDecimalText input.currentBid
  ask : isDecimalText input.currentAsk
  tick : isDecimalText input.tickSize
  minimum : isDecimalText input.minimumStopDistance
  atr : isDecimalText input.atr
  entryAtr : isDecimalText input.maxEntryDistanceAtr
  buyMinimum : bounds.buyEntryMinimum =
    ceilToTick (input.currentAsk.plus input.minimumStopDistance) input.tickSize
  buyMaximum : bounds.buyEntryMaximum =
    floorToTick (input.currentAsk.plus (input.atr.times input.maxEntryDistanceAtr)) input.tickSize
  sellMinimum : bounds.sellEntryMinimum =
    ceilToTick (input.currentBid.minus (input.atr.times input.maxEntryDistanceAtr)) input.tickSize
  sellMaximum : bounds.sellEntryMaximum =
    floorToTick (input.currentBid.minus input.minimumStopDistance) input.tickSize
  preferred : ∀ side, ∃ n m : ℤ,
    bounds.preferredEntryMinimum side = (n : Decimal).times input.tickSize ∧
    bounds.preferredEntryMaximum side = (m : Decimal).times input.tickSize
  ranges : ∀ side, bounds.entryMinimum side ≤ bounds.preferredEntryMinimum side ∧
    bounds.preferredEntryMinimum side ≤ bounds.preferredEntryMaximum side ∧
    bounds.preferredEntryMaximum side ≤ bounds.entryMaximum side
  stopMinimum : bounds.minimumStopDistance = ceilToTick input.minimumStopDistance input.tickSize
  stopMaximum : bounds.maximumStopDistance = floorToTick
    (min (input.atr.times input.maxStopDistanceAtr) input.maxAffordableStopDistance) input.tickSize

theorem deriveModelExecutionBounds_range {input : BoundsInput} {bounds : ModelExecutionBounds}
    (hmode : input.entryPairMode = false) (h : deriveModelExecutionBounds input = .ok bounds) :
    RangeOf input bounds := by
  simp only [deriveModelExecutionBounds, hmode, Bool.false_eq_true, if_false, rangeBounds, bind_ok,
    decimal_ok, require_ok, pure_ok] at h
  obtain ⟨_, ⟨rfl, hbid⟩, _, ⟨rfl, hask⟩, _, ⟨rfl, htick⟩, _, ⟨rfl, hminimum⟩, _, ⟨rfl, hatr⟩, _,
    ⟨rfl, hentryAtr⟩, _, ⟨rfl, -⟩, _, ⟨rfl, -⟩, _, ⟨rfl, -⟩, _, ⟨rfl, -⟩, _, -, _, hpreferred, _,
    -, _, -, rfl⟩ := h
  obtain ⟨hbuy, hsell, hbuyLow, hbuyHigh, hsellLow, hsellHigh⟩ := hpreferred
  refine ⟨hbid, hask, htick, hminimum, hatr, hentryAtr, rfl, rfl, rfl, rfl, ?_, ?_, rfl, rfl⟩
  · rintro (_ | _)
    · exact ⟨_, _, rfl, rfl⟩
    · exact ⟨_, _, rfl, rfl⟩
  · rintro (_ | _)
    · exact ⟨hbuyLow, hbuy, hbuyHigh⟩
    · exact ⟨hsellLow, hsell, hsellHigh⟩

section

variable {input : BoundsInput} {bounds : ModelExecutionBounds} {entry : Decimal}

/-- The sum of two texts has at most 37 digits. -/
theorem plus_digits {a b : Decimal} (ha : isDecimalText a) (hb : isDecimalText b) :
    ∃ n : ℕ, n < 10 ^ 37 ∧ a.plus b = n / 10 ^ 20 := by
  rw [plus_texts ha hb]
  obtain ⟨n, hn, rfl⟩ := isDecimalText_iff.mp ha
  obtain ⟨m, hm, rfl⟩ := isDecimalText_iff.mp hb
  refine ⟨(n + m) * 10 ^ 10, by omega, ?_⟩
  push_cast
  ring

/-- What the distance limit leaves of a bid: nothing, or a value of at most 37 digits. -/
theorem minus_limit {bid atr limit : Decimal} (hbid : isDecimalText bid) (hatr : isDecimalText atr)
    (hlimit : isDecimalText limit) : (bid - atr.times limit ≤ 0 ∧ bid.minus (atr.times limit) ≤ 0) ∨
      bid.minus (atr.times limit) = bid - atr.times limit ∧
      ∃ n : ℕ, n < 10 ^ 37 ∧ bid.minus (atr.times limit) = n / 10 ^ 20 := by
  rcases le_or_gt (bid - atr.times limit) 0 with hle | hgt
  · exact .inl ⟨hle, Significant.truncate_nonpos hle⟩
  right
  obtain ⟨n, hn, hnEq⟩ := isDecimalText_iff.mp hbid
  obtain ⟨m, -, hmEq⟩ := isDecimalText_iff.mp hatr
  obtain ⟨k, -, hkEq⟩ := isDecimalText_iff.mp hlimit
  have hbidLt := (text_bounds hbid).2
  have hproduct : atr * limit = ((m * k : ℕ) : ℚ) / 10 ^ 20 := by
    rw [hmEq, hkEq]
    push_cast
    ring
  have hfits : Fits Decimal.precision ((10 : ℚ) ^ 16) := Significant.fits_pow (by decide)
  have hsmall : atr * limit < 10 ^ 16 := by
    by_contra hlarge
    have hge := (hfits.le_truncate_iff (by decide) (by norm_num)).mpr (not_lt.mp hlarge)
    have hge' : (10 : ℚ) ^ 16 ≤ atr.times limit := hge
    linarith
  have hmk : m * k < 10 ^ 36 := by
    rw [hproduct, div_lt_iff₀ (by norm_num)] at hsmall
    have hcast : ((m * k : ℕ) : ℚ) < ((10 ^ 36 : ℕ) : ℚ) := by
      push_cast at hsmall ⊢
      linarith
    exact_mod_cast hcast
  have htimes : atr.times limit = ((m * k : ℕ) : ℚ) / 10 ^ 20 := by
    rw [Decimal.times, hproduct]
    exact Decimal.exact_nat (m * k) 20 rfl (by omega)
  have hunits : bid - atr.times limit = ((n * 10 ^ 10 - m * k : ℕ) : ℚ) / 10 ^ 20 := by
    have hle : m * k ≤ n * 10 ^ 10 := by
      rw [htimes, hnEq, sub_pos, div_lt_div_iff₀ (by norm_num) (by norm_num)] at hgt
      have hcast : ((m * k : ℕ) : ℚ) ≤ ((n * 10 ^ 10 : ℕ) : ℚ) := by
        push_cast at hgt ⊢
        linarith
      exact_mod_cast hcast
    rw [htimes, hnEq, Nat.cast_sub hle]
    push_cast
    ring
  have hexact : bid.minus (atr.times limit) = bid - atr.times limit := by
    rw [Decimal.minus, hunits]
    exact Decimal.exact_nat _ 20 rfl (by omega)
  exact ⟨hexact, n * 10 ^ 10 - m * k, by omega, hexact.trans hunits⟩

/-- An entry of the grid is within the full range exactly if neither check of the entry refuses
    it. -/
theorem entry_iff (hr : RangeOf input bounds) (hpos : 0 < input.tickSize)
    (hentry : OnGrid input.tickSize entry) (side : OrderSide) :
    ¬ input.TooClose entry side ∧ ¬ input.TooFar entry side ↔
      bounds.entryMinimum side ≤ entry ∧ entry ≤ bounds.entryMaximum side := by
  obtain ⟨hnonneg, -⟩ := text_bounds hentry.text
  cases side with
  | buy =>
    simp only [BoundsInput.TooClose, BoundsInput.TooFar, not_lt, ModelExecutionBounds.entryMinimum,
      ModelExecutionBounds.entryMaximum, hr.buyMinimum, hr.buyMaximum]
    have hsum : entry ≤ input.currentAsk.plus (input.atr.times input.maxEntryDistanceAtr) ↔
        entry ≤ input.currentAsk + input.atr.times input.maxEntryDistanceAtr :=
      (text_fits hentry.text).le_truncate_iff (by decide) hnonneg
    rw [ceilToTick_le_iff hr.tick hpos hentry (plus_digits hr.ask hr.minimum),
      le_floorToTick_iff hpos hentry, minus_texts hentry.text hr.ask, hsum, sub_le_iff_le_add']
  | sell =>
    simp only [BoundsInput.TooClose, BoundsInput.TooFar, not_lt, ModelExecutionBounds.entryMinimum,
      ModelExecutionBounds.entryMaximum, hr.sellMinimum, hr.sellMaximum]
    rw [le_floorToTick_iff hpos hentry, minus_texts hr.bid hentry.text, and_comm]
    refine and_congr_left fun _ => ?_
    rcases minus_limit hr.bid hr.atr hr.entryAtr with ⟨hle, hminus⟩ | ⟨hexact, hdigits⟩
    · exact iff_of_true (by linarith) ((ceilToTick_nonpos hpos hminus).trans hnonneg)
    · rw [ceilToTick_le_iff hr.tick hpos hentry hdigits, hexact, sub_le_comm]

/-- The distance of two prices of the grid is on the grid. -/
theorem distance_onGrid (hpos : 0 < input.tickSize) {entry stop : Decimal}
    (hentry : OnGrid input.tickSize entry) (hstop : OnGrid input.tickSize stop) :
    OnGrid input.tickSize |entry.minus stop| := by
  obtain ⟨n, hn, hnEq⟩ := hentry.steps
  obtain ⟨m, hm, hmEq⟩ := hstop.steps
  obtain ⟨he, heLt⟩ := text_bounds hentry.text
  obtain ⟨hs, hsLt⟩ := text_bounds hstop.text
  rw [minus_texts hentry.text hstop.text]
  constructor
  · obtain ⟨e, heUnits, heEq⟩ := isDecimalText_iff.mp hentry.text
    obtain ⟨s, hsUnits, hsEq⟩ := isDecimalText_iff.mp hstop.text
    refine isDecimalText_iff.mpr ⟨((e : ℤ) - s).natAbs, by omega, ?_⟩
    rw [Nat.cast_natAbs, Int.cast_abs, heEq, hsEq, ← sub_div, abs_div,
      abs_of_pos (by norm_num : (0 : ℚ) < 10 ^ 10)]
    push_cast
    rfl
  · refine ⟨((n : ℤ) - m).natAbs, by omega, ?_⟩
    rw [Nat.cast_natAbs, Int.cast_abs, hnEq, hmEq, ← sub_mul, abs_mul, abs_of_pos hpos]
    push_cast
    rfl

/-- A distance of the grid is within the stop range exactly if no check of the stop refuses it. -/
theorem distance_iff (hr : RangeOf input bounds) (hpos : 0 < input.tickSize) {risk : Decimal}
    (hrisk : OnGrid input.tickSize risk) :
    (¬ risk < input.minimumStopDistance ↔ bounds.minimumStopDistance ≤ risk) ∧
    (¬ input.atr.times input.maxStopDistanceAtr < risk ∧ ¬ input.maxAffordableStopDistance < risk ↔
      risk ≤ bounds.maximumStopDistance) := by
  obtain ⟨n, hn, hnEq⟩ := isDecimalText_iff.mp hr.minimum
  have hdigits : ∃ a : ℕ, a < 10 ^ 37 ∧ input.minimumStopDistance = a / 10 ^ 20 := by
    refine ⟨n * 10 ^ 10, by omega, ?_⟩
    rw [hnEq]
    push_cast
    ring
  rw [hr.stopMinimum, hr.stopMaximum, ceilToTick_le_iff hr.tick hpos hrisk hdigits,
    le_floorToTick_iff hpos hrisk, le_min_iff, not_lt, not_lt, not_lt]
  exact ⟨Iff.rfl, Iff.rfl⟩

end

/-- Bounds in the range mode, for a positive tick size: the ranges are not empty, the preferred
    ones lie in the full ones, and bounds of at most forty digits are on the grid. An entry of the
    grid is within its range exactly if `checkLeg`, under the same configuration, finds it neither
    too close nor too far, and a distance of the grid is within the limits exactly if `checkLeg`
    finds the stop neither too close nor too far. -/
theorem bounds_agree {input : BoundsInput} {bounds : ModelExecutionBounds}
    (hmode : input.entryPairMode = false) (hpos : 0 < input.tickSize)
    (h : deriveModelExecutionBounds input = .ok bounds) :
    (∀ side, ∀ bound ∈ [bounds.entryMinimum side, bounds.entryMaximum side,
        bounds.preferredEntryMinimum side, bounds.preferredEntryMaximum side],
      |bound| < 10 ^ 30 → isTickAligned bound input.tickSize) ∧
    (∀ side, bounds.entryMinimum side ≤ bounds.preferredEntryMinimum side ∧
      bounds.preferredEntryMinimum side ≤ bounds.preferredEntryMaximum side ∧
      bounds.preferredEntryMaximum side ≤ bounds.entryMaximum side) ∧
    ∀ side proposal context reasons, SameConfiguration input context →
      checkLeg side proposal context = .ok reasons →
      isTickAligned proposal.entryPrice input.tickSize →
      (side.text ++ "_ENTRY_TOO_CLOSE" ∉ reasons ∧
          side.text ++ "_ENTRY_DISTANCE_ATR_EXCEEDED" ∉ reasons ↔
        bounds.entryMinimum side ≤ proposal.entryPrice ∧
          proposal.entryPrice ≤ bounds.entryMaximum side) ∧
      (isTickAligned proposal.stopLoss input.tickSize →
        (side.text ++ "_STOP_DISTANCE_TOO_SMALL" ∉ reasons ↔
          bounds.minimumStopDistance ≤ |proposal.entryPrice - proposal.stopLoss|) ∧
        (side.text ++ "_STOP_DISTANCE_EXCESSIVE" ∉ reasons ∧
            side.text ++ "_STOP_DISTANCE_UNAFFORDABLE_AT_MIN_VOLUME" ∉ reasons ↔
          |proposal.entryPrice - proposal.stopLoss| ≤ bounds.maximumStopDistance)) := by
  have hr := deriveModelExecutionBounds_range hmode h
  refine ⟨?_, hr.ranges, ?_⟩
  · intro side bound hbound hlt
    have hticks : ∃ n : ℤ, bound = (n : Decimal).times input.tickSize := by
      obtain ⟨n, m, hn, hm⟩ := hr.preferred side
      simp only [List.mem_cons, List.not_mem_nil, or_false] at hbound
      rcases hbound with rfl | rfl | rfl | rfl
      · cases side with
        | buy => exact ⟨_, hr.buyMinimum⟩
        | sell => exact ⟨_, hr.sellMinimum⟩
      · cases side with
        | buy => exact ⟨_, hr.buyMaximum⟩
        | sell => exact ⟨_, hr.sellMaximum⟩
      · exact ⟨n, hn⟩
      · exact ⟨m, hm⟩
    obtain ⟨n, rfl⟩ := hticks
    rw [(text_inPlaces hr.tick).intMul_eq hlt, isTickAligned, mul_div_cancel_right₀ _ hpos.ne', Rat.den_intCast]
    exact decide_eq_true ⟨hpos, rfl⟩
  · intro side proposal context reasons hsame hcheck hentryAligned
    obtain ⟨hentryText, hstopText, hclose, hfar, hsmall, hexcess, hunaffordable⟩ :=
      checkLeg_reasons hsame hcheck
    obtain ⟨-, hentry⟩ := onGrid_of_aligned hr.tick hentryText hentryAligned
    refine ⟨?_, fun hstopAligned => ?_⟩
    · rw [hclose, hfar]
      exact entry_iff hr hpos hentry side
    · obtain ⟨-, hstop⟩ := onGrid_of_aligned hr.tick hstopText hstopAligned
      rw [hsmall, hexcess, hunaffordable, ← minus_texts hentryText hstopText]
      exact distance_iff hr hpos (distance_onGrid hpos hentry hstop)

/-! ### Bounds of the instrument, and beyond forty digits -/

namespace BoundsSample

def input : BoundsInput where
  currentBid := 2000
  currentAsk := 200003 / 100
  tickSize := 1 / 100
  minimumStopDistance := 5 / 100
  atr := 133 / 100
  maxEntryDistanceAtr := 2
  entryLatencyBufferAtr := 1 / 10
  preferredMaxEntryDistanceAtr := 1
  maxStopDistanceAtr := 3
  maxAffordableStopDistance := 7
  serverTime := some 1000000
  preferredExpirySeconds := 60

/-- A tick of eleven digits, and an entry distance of nearly `10 ^ 32`. -/
def wide : BoundsInput :=
  { input with
    tickSize := 12345678901 / 10 ^ 10
    minimumStopDistance := 12345678901 / 10 ^ 10
    atr := 10 ^ 16 - 1
    maxEntryDistanceAtr := 10 ^ 16 - 1
    maxAffordableStopDistance := 70
    entryLatencyBufferAtr := 0 }

end BoundsSample

/-- The highest entry of the instrument, 2.66 above the ask, is on the grid and one tick above it is
    refused. -/
theorem bounds_agree_instrument : ∃ bounds,
    deriveModelExecutionBounds BoundsSample.input = .ok bounds ∧
    bounds.buyEntryMaximum = 200269 / 100 ∧ isTickAligned bounds.buyEntryMaximum (1 / 100) ∧
    ∀ proposal context reasons, SameConfiguration BoundsSample.input context →
      checkLeg .buy proposal context = .ok reasons → proposal.entryPrice = 20027 / 10 →
      "BUY_ENTRY_TOO_CLOSE" ∈ reasons ∨ "BUY_ENTRY_DISTANCE_ATR_EXCEEDED" ∈ reasons := by
  have hmaximum : (deriveModelExecutionBounds BoundsSample.input).toOption.map
      ModelExecutionBounds.buyEntryMaximum = some (200269 / 100) := by decide +kernel
  cases h : deriveModelExecutionBounds BoundsSample.input with
  | error reason =>
    rw [h] at hmaximum
    cases hmaximum
  | ok bounds =>
    rw [h] at hmaximum
    have hbuy : bounds.buyEntryMaximum = 200269 / 100 := Option.some_inj.mp hmaximum
    obtain ⟨haligned, -, hentries⟩ := bounds_agree rfl (by decide +kernel) h
    refine ⟨bounds, rfl, hbuy, ?_, fun proposal context reasons hsame hcheck hentry => ?_⟩
    · refine haligned .buy _ (by simp [ModelExecutionBounds.entryMaximum]) ?_
      rw [hbuy]
      norm_num
    · have hiff := (hentries .buy proposal context reasons hsame hcheck
        (by rw [hentry]; decide +kernel)).1
      by_contra hnone
      rw [not_or] at hnone
      have hle := (hiff.mp hnone).2
      rw [hentry] at hle
      change (20027 / 10 : ℚ) ≤ bounds.buyEntryMaximum at hle
      rw [hbuy] at hle
      norm_num at hle

/-- The highest entry is rounded to forty digits, off the grid. -/
theorem wide_maximum_unaligned : BoundsSample.wide.entryPairMode = false ∧
    0 < BoundsSample.wide.tickSize ∧ ∃ bounds,
      deriveModelExecutionBounds BoundsSample.wide = .ok bounds ∧
      ¬ isTickAligned bounds.buyEntryMaximum BoundsSample.wide.tickSize := by
  refine ⟨rfl, by decide +kernel, ?_⟩
  have hmaximum : (deriveModelExecutionBounds BoundsSample.wide).toOption.map
      (fun bounds => isTickAligned bounds.buyEntryMaximum BoundsSample.wide.tickSize) =
        some false := by decide +kernel
  cases h : deriveModelExecutionBounds BoundsSample.wide with
  | error reason =>
    rw [h] at hmaximum
    cases hmaximum
  | ok bounds =>
    rw [h] at hmaximum
    have hunaligned : isTickAligned bounds.buyEntryMaximum BoundsSample.wide.tickSize = false :=
      Option.some_inj.mp hmaximum
    exact ⟨bounds, rfl, Bool.eq_false_iff.mp hunaligned⟩

end ScalpingBot.Model
