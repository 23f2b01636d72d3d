import ScalpingBot.Technical.Structure

/-! The level map that extends the structure of a frame, python/technical/levels.py: its own search for
    pivots, how deep later candles went into a zone, and the anatomy of the latest candles. Its `text`
    is that of the structure. -/

namespace ScalpingBot.Technical

open Indicators (sub mul div add)

/-! ### Decimals -/

/-- Two places toward zero; `quantize` raises on a result of more than 28 digits. -/
def fraction (value : ℚ) : Option ℚ :=
  let kept := Decimal.toDecimalPlacesDown 2 value
  if |kept| < 10 ^ 26 then some (text kept) else none

/-- `to_integral_value(ROUND_HALF_UP)`. -/
def halfUp (value : ℚ) : ℚ := if value < 0 then -⌊-value + 1 / 2⌋ else ⌊value + 1 / 2⌋

def onTick (value tick : ℚ) : ℚ := mul context (halfUp (div context value tick)) tick

/-! ### Pivots -/

structure SwingPivot where
  side : Side
  price : ℚ
  candleAt : Timestamp
  availableAt : Timestamp
  deriving DecidableEq

def segmentStart (bars : List Candle) : ℕ :=
  bars.zipIdx.foldl (fun last p =>
    if p.1.qualityFlags.contains "BROKER_SESSION_GAP_BEFORE" then p.2 else last) 0

/-- The fractals that the i-th candle confirms. -/
def swingsAt (bars : List Candle) (i : ℕ) : List SwingPivot :=
  match bars[i - 3]?, bars[i]? with
  | some center, some c =>
    let peers := ((bars.take (i + 1)).drop (i - 6)).eraseIdx 3
    (if peers.all fun b => center.high > b.high then
      [⟨.high, center.high, center.endTime, c.endTime⟩] else []) ++
    (if peers.all fun b => center.low < b.low then
      [⟨.low, center.low, center.endTime, c.endTime⟩] else [])
  | _, _ => []

def swingPivots (bars : List Candle) : List SwingPivot :=
  (List.range' 6 (bars.length - 6)).flatMap (swingsAt bars)

/-! ### Zones -/

structure ZoneExtension where
  midpoint : ℚ
  penetrationFraction : ℚ
  deriving DecidableEq

/-- A part of the width, all of it at most; a zone without a width is taken at once. -/
def share (part width : ℚ) : ℚ := if width = 0 then 1 else min 1 (div context part width)

/-- How deep candles went into a zone. -/
def depth (zone : Zone) (later : List Candle) : ℚ :=
  let width := sub context zone.upper zone.lower
  match zone.direction with
  | .bullish =>
    match (later.map Candle.low).min? with
    | none => 0
    | some deepest =>
      if deepest ≤ zone.upper then share (sub context zone.upper deepest) width else 0
  | .bearish =>
    match (later.map Candle.high).max? with
    | none => 0
    | some highest =>
      if highest ≥ zone.lower then share (sub context highest zone.lower) width else 0

def zoneExtension (zone : Zone) (bars : List Candle) (tick : ℚ) : Option ZoneExtension := do
  let later := bars.filter fun b => b.endTime.instant > zone.availableAt.instant
  let penetrationFraction ← fraction (depth zone later)
  return {
    midpoint := text (onTick (div context (add context zone.lower zone.upper) 2) tick)
    penetrationFraction }

/-! ### Anatomy -/

/-- `ANATOMY_COUNT`. -/
def anatomyCount : Timeframe → ℕ
  | .m1 => 5
  | .m5 => 3
  | .m15 => 3

inductive BodyDirection where
  | up
  | down
  | doji
  deriving DecidableEq

structure AnatomyRow where
  endAt : Timestamp
  direction : BodyDirection
  rangeSize : ℚ
  rangeToAtr : Option ℚ
  bodyFraction : ℚ
  upperWickFraction : ℚ
  lowerWickFraction : ℚ
  closeLocation : ℚ
  insideBar : Bool
  engulfing : Bool
  displacement : Bool
  deriving DecidableEq

def bodyDirection (c : Candle) : BodyDirection :=
  if c.close > c.open' then .up else if c.close < c.open' then .down else .doji

def engulfs (previous c : Candle) : Bool :=
  bodyDirection c ≠ .doji ∧ bodyDirection previous ≠ .doji ∧
    bodyDirection previous ≠ bodyDirection c ∧
    max c.open' c.close ≥ max previous.open' previous.close ∧
    min c.open' c.close ≤ min previous.open' previous.close

/-- A fraction of the range, or what stands for it in a candle without one. -/
def ofSpan (part span whole : ℚ) : Option ℚ :=
  if span = 0 then some whole else fraction (div context part span)

/-- The range in units of the average before it, where there is one. -/
def ofAtr (span : ℚ) (prior : Option ℚ) : Option (Option ℚ) :=
  match prior with
  | none => some none
  | some prior => if prior = 0 then some none else (fraction (div context span prior)).map some

def anatomyRow (atr : List (Option ℚ)) (bars : List Candle) (first i : ℕ) : Option AnatomyRow := do
  let c ← bars[i]?
  let span := sub context c.high c.low
  let body := context |sub context c.close c.open'|
  let prior := if i > first then (atr[i - 1]?).join else none
  let previous := if i > first then bars[i - 1]? else none
  let rangeToAtr ← ofAtr span prior
  let bodyFraction ← ofSpan body span 0
  let upperWickFraction ← ofSpan (sub context c.high (max c.open' c.close)) span 0
  let lowerWickFraction ← ofSpan (sub context (min c.open' c.close) c.low) span 0
  let closeLocation ← ofSpan (sub context c.close c.low) span (1 / 2)
  return {
    endAt := c.endTime
    direction := bodyDirection c
    rangeSize := text span
    rangeToAtr
    bodyFraction
    upperWickFraction
    lowerWickFraction
    closeLocation
    insideBar := previous.any fun p => c.high ≤ p.high ∧ c.low ≥ p.low
    engulfing := previous.any fun p => engulfs p c
    displacement := prior.any fun prior => prior > 0 ∧ span > 0 ∧ body ≥ mul context prior (15 / 10) ∧
      div context body span ≥ 6 / 10 }

def anatomy (frame : Timeframe) (bars : List Candle) (first : ℕ) : Option (List AnatomyRow) :=
  let start := max first (bars.length - anatomyCount frame)
  (List.range' start (bars.length - start)).mapM (anatomyRow (atr bars) bars first)

end ScalpingBot.Technical
