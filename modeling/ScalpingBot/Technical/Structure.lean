import ScalpingBot.Indicators.Core
import ScalpingBot.Technical.Candle

/-! The structure of a frame, python/technical/structure.py: pivots that are confirmed three candles
    late, breaks and sweeps of the latest ones, and zones that age candle by candle. -/

namespace ScalpingBot.Technical

open Indicators (sub mul div)

/-! ### What is recorded -/

inductive Side where
  | high
  | low
  deriving DecidableEq

inductive Direction where
  | bullish
  | bearish
  deriving DecidableEq

structure Pivot where
  side : Side
  price : ℚ
  candleAt : Timestamp
  availableAt : Timestamp
  deriving DecidableEq

inductive EventKind where
  | initialBreak
  | bos
  | mss
  | sweep
  deriving DecidableEq

structure StructureEvent where
  kind : EventKind
  direction : Direction
  level : ℚ
  pivotAt : Timestamp
  availableAt : Timestamp
  displacement : Bool
  deriving DecidableEq

inductive ZoneKind where
  | orderBlock
  | fvg
  deriving DecidableEq

inductive ZoneStatus where
  | fresh
  | touched
  | filled
  | invalidated
  deriving DecidableEq

structure Zone where
  kind : ZoneKind
  direction : Direction
  lower : ℚ
  upper : ℚ
  originAt : Timestamp
  availableAt : Timestamp
  status : ZoneStatus := .fresh
  firstTouchedAt : Option Timestamp := none
  resolvedAt : Option Timestamp := none
  ageBars : ℕ := 0
  distanceFromQuote : ℚ := 0
  overlapCount : ℕ := 0
  deriving DecidableEq

/-! ### Zones -/

def invalid (c : Candle) (zone : Zone) : Bool :=
  match zone.direction with
  | .bullish => c.close < zone.lower
  | .bearish => c.close > zone.upper

def touch (c : Candle) (zone : Zone) : Bool := c.low ≤ zone.upper ∧ c.high ≥ zone.lower

def filled (c : Candle) (zone : Zone) : Bool :=
  match zone.direction with
  | .bullish => c.low ≤ zone.lower
  | .bearish => c.high ≥ zone.upper

def statusAfter (c : Candle) (zone : Zone) : ZoneStatus :=
  if invalid c zone then .invalidated
  else if zone.kind = .fvg ∧ filled c zone then .filled
  else if touch c zone then .touched
  else zone.status

def ZoneStatus.resolved (status : ZoneStatus) : Bool := status = .filled ∨ status = .invalidated

/-- A zone after a candle that ends later than it became available. -/
def ageZone (c : Candle) (zone : Zone) : Zone :=
  if zone.status.resolved then { zone with ageBars := zone.ageBars + 1 }
  else
    { zone with
      status := statusAfter c zone
      firstTouchedAt := zone.firstTouchedAt.or (if touch c zone then some c.endTime else none)
      resolvedAt := if (statusAfter c zone).resolved then some c.endTime else none
      ageBars := zone.ageBars + 1 }

/-- The three candle gap that ends with a candle. -/
def gapZone (before : List Candle) (c : Candle) : Option Zone :=
  if before.length < 2 then none
  else
    match before[before.length - 2]? with
    | none => none
    | some left =>
      if c.low > left.high then
        some
          { kind := .fvg
            direction := .bullish
            lower := text left.high
            upper := text c.low
            originAt := left.endTime
            availableAt := c.endTime }
      else if c.high < left.low then
        some
          { kind := .fvg
            direction := .bearish
            lower := text c.high
            upper := text left.low
            originAt := left.endTime
            availableAt := c.endTime }
      else none

/-! ### Pivots -/

def priceOf (side : Side) (c : Candle) : ℚ :=
  match side with
  | .high => c.high
  | .low => c.low

/-- The center lies beyond a peer. -/
def beyond (side : Side) (center peer : Candle) : Bool :=
  match side with
  | .high => center.high > peer.high
  | .low => center.low < peer.low

/-- The pivot of a side that a candle confirms, three candles after its center. -/
def pivotAt (before : List Candle) (c : Candle) (side : Side) : Option Pivot :=
  if before.length < 6 then none
  else
    let window := (before ++ [c]).drop (before.length - 6)
    match window[3]? with
    | none => none
    | some center =>
      if (window.eraseIdx 3).all (beyond side center) then
        some ⟨side, text (priceOf side center), center.endTime, c.endTime⟩
      else none

def sides : List Side := [.high, .low]

def pivotsAt (before : List Candle) (c : Candle) : List Pivot := sides.filterMap (pivotAt before c)

/-! ### Displacement -/

/-- A body of at least 1.5 times the average range before it, and of 0.6 of its own range. -/
def displaced (priorAtr : Option ℚ) (c : Candle) : Bool :=
  let body := context |sub context c.close c.open'|
  let width := sub context c.high c.low
  match priorAtr with
  | none => false
  | some prior => prior > 0 ∧ width > 0 ∧ body ≥ mul context prior (15 / 10) ∧
      div context body width ≥ 6 / 10

/-! ### The loop -/

instance lawfulBEq_broken : LawfulBEq (Side × Timestamp) := inferInstance

/-- The variables of the loop; a bias that is not known yet is none. -/
structure State where
  pivots : List Pivot := []
  events : List StructureEvent := []
  zones : List Zone := []
  origins : List (Direction × Timestamp) := []
  latest : Side → Option Pivot := fun _ => none
  broken : List (Side × Timestamp) := []
  bias : Option Direction := none

def breakDirection : Side → Direction
  | .high => .bullish
  | .low => .bearish

def sweepDirection : Side → Direction
  | .high => .bearish
  | .low => .bullish

def crosses (side : Side) (c : Candle) (level : ℚ) : Bool :=
  match side with
  | .high => c.close > level
  | .low => c.close < level

def sweeps (side : Side) (c : Candle) (level : ℚ) : Bool :=
  match side with
  | .high => c.high > level ∧ c.close < level
  | .low => c.low < level ∧ c.close > level

def breakKind (bias : Option Direction) (direction : Direction) : EventKind :=
  match bias with
  | none => .initialBreak
  | some bias => if bias = direction then .bos else .mss

/-- A candle body against the direction of the break. -/
def opposite (direction : Direction) (origin : Candle) : Bool :=
  match direction with
  | .bullish => origin.close < origin.open'
  | .bearish => origin.close > origin.open'

/-- The latest opposite candle within ten before a break. -/
def originOf (before : List Candle) (direction : Direction) : Option Candle :=
  (before.drop (before.length - 10)).reverse.find? (opposite direction)

/-- The zone of an opposite candle, unless it has one. -/
def addOrderBlock (before : List Candle) (c : Candle) (direction : Direction) (s : State) : State :=
  match originOf before direction with
  | none => s
  | some origin =>
    if (direction, origin.endTime) ∈ s.origins then s
    else
      { s with
        origins := (direction, origin.endTime) :: s.origins
        zones := s.zones ++ [{
          kind := .orderBlock
          direction
          lower := text (min origin.open' origin.close)
          upper := text (max origin.open' origin.close)
          originAt := origin.endTime
          availableAt := c.endTime }] }

/-- What a candle does to the latest pivot of a side. -/
def sideStep (before : List Candle) (displacement : Bool) (c : Candle) (s : State) (side : Side) :
    State :=
  match s.latest side with
  | none => s
  | some pivot =>
    if (side, pivot.candleAt) ∈ s.broken then s
    else if crosses side c pivot.price then
      let direction := breakDirection side
      let s' :=
        { s with
          events := s.events ++ [⟨breakKind s.bias direction, direction, pivot.price, pivot.candleAt,
            c.endTime, displacement⟩]
          broken := (side, pivot.candleAt) :: s.broken
          bias := some direction }
      if displacement then addOrderBlock before c direction s' else s'
    else if sweeps side c pivot.price then
      { s with
        events := s.events ++ [⟨.sweep, sweepDirection side, pivot.price, pivot.candleAt, c.endTime,
          displacement⟩] }
    else s

def recordPivot (s : State) (pivot : Pivot) : State :=
  { s with
    pivots := s.pivots ++ [pivot]
    latest := Function.update s.latest pivot.side (some pivot) }

/-- One candle, with the candles of the segment before it. -/
def step (before : List Candle) (s : State) (input : Candle × Bool) : State :=
  let c := input.1
  let s := { s with zones := s.zones.map (ageZone c) }
  let s := (pivotsAt before c).foldl recordPivot s
  let s := sides.foldl (sideStep before input.2 c) s
  { s with zones := s.zones ++ (gapZone before c).toList }

def loop (before : List Candle) (s : State) : List (Candle × Bool) → State
  | [] => s
  | input :: rest => loop (before ++ [input.1]) (step before s input) rest

/-! ### The segment -/

def flagged (c : Candle) : Bool := c.qualityFlags.contains brokerSessionGapBefore

/-- The index of the last candle after a gap of the session, or of the first one. -/
def boundary (candles : List Candle) : ℕ :=
  candles.zipIdx.foldl (fun last p => if flagged p.1 then p.2 else last) 0

def numericBar (c : Candle) : Indicators.PriceBar := ⟨c.high, c.low, c.close⟩

/-- The average true range over all observed candles. -/
def atr (candles : List Candle) : List (Option ℚ) :=
  Indicators.wilderValues context 15 (Indicators.trueRanges context (candles.map numericBar))

/-- The average before a candle of the segment that starts at `first`; the first has none. -/
def priorAtr (atr : List (Option ℚ)) (first i : ℕ) : Option ℚ :=
  if i = 0 then none else (atr[first + i - 1]?).join

/-- The candles of a segment, each with its flag of displacement. -/
def inputs (candles : List Candle) (first : ℕ) : List (Candle × Bool) :=
  (candles.drop first).mapIdx fun i c => (c, displaced (priorAtr (atr candles) first i) c)

/-- The variables after the loop. -/
def structureOf (candles : List Candle) : State := loop [] {} (inputs candles (boundary candles))

/-! ### The context of a frame -/

def distance (zone : Zone) (quoteMid : ℚ) : ℚ :=
  max (max (sub context zone.lower quoteMid) (sub context quoteMid zone.upper)) 0

/-- All zones, with their distances from the quote. -/
def zonesAt (candles : List Candle) (quoteMid : ℚ) : List Zone :=
  (structureOf candles).zones.map fun zone =>
    { zone with distanceFromQuote := text (distance zone quoteMid) }

/-- How many other active zones of its direction a zone overlaps. -/
def overlaps (active : List Zone) (i : ℕ) (zone : Zone) : ℕ :=
  active.zipIdx.countP fun (other, j) => j ≠ i ∧ other.direction = zone.direction ∧
    max zone.lower other.lower ≤ min zone.upper other.upper

/-- The order of active zones: near ones first, then those with many overlaps, then young ones. -/
def ranksBefore (a b : Zone) : Bool :=
  a.distanceFromQuote < b.distanceFromQuote ∨ (a.distanceFromQuote = b.distanceFromQuote ∧
    (b.overlapCount < a.overlapCount ∨ (a.overlapCount = b.overlapCount ∧ a.ageBars ≤ b.ageBars)))

def ranked (active : List Zone) (quoteMid : ℚ) : List Zone :=
  (active.mapIdx fun i zone =>
    { zone with
      distanceFromQuote := text (distance zone quoteMid)
      overlapCount := overlaps active i zone }).mergeSort ranksBefore

/-- The text that resolved zones are sorted by. -/
def resolvedText (zone : Zone) : String := (zone.resolvedAt.map Timestamp.isoformat).getD ""

inductive PoolKind where
  | equalHighs
  | equalLows
  deriving DecidableEq

structure LiquidityPool where
  kind : PoolKind
  level : ℚ
  tolerance : ℚ
  confirmedTouches : ℕ
  firstPivotAt : Timestamp
  availableAt : Timestamp
  deriving DecidableEq

/-- The pivot joins the first group whose first pivot it equals within the tolerance. -/
def joinGroup (tolerance : ℚ) (pivot : Pivot) : List (List Pivot) → List (List Pivot)
  | [] => [[pivot]]
  | group :: rest =>
    if group.head?.any fun first => first.side = pivot.side ∧
        context |sub context first.price pivot.price| ≤ tolerance then
      (group ++ [pivot]) :: rest
    else group :: joinGroup tolerance pivot rest

def poolOf (tolerance : ℚ) (group : List Pivot) : Option LiquidityPool :=
  match group.head?, group.getLast? with
  | some first, some last =>
    if 2 ≤ group.length then
      some
        { kind := match first.side with
            | .high => .equalHighs
            | .low => .equalLows
          level := first.price
          tolerance := text tolerance
          confirmedTouches := group.length
          firstPivotAt := first.candleAt
          availableAt := last.availableAt }
    else none
  | _, _ => none

def liquidityPools (pivots : List Pivot) (quoteMid tickSize : ℚ) : List LiquidityPool :=
  let tolerance := mul context tickSize 2
  let groups := pivots.foldl (fun groups pivot => joinGroup tolerance pivot groups) []
  (groups.filterMap (poolOf tolerance)).mergeSort fun a b =>
    context |sub context a.level quoteMid| ≤ context |sub context b.level quoteMid|

structure DayRange where
  utcDate : String
  complete : Bool
  high : Option ℚ
  low : Option ℚ

/-- The range of the UTC day before that of the last candle, if all its candles are there. -/
def previousDay (candles : List Candle) (seconds : ℕ) (last : Candle) : DayRange :=
  let day := last.endTime.instant / microseconds 86400 - 1
  let start := day * microseconds 86400
  let bars := candles.filter fun c => start ≤ c.startTime.instant ∧
    c.startTime.instant < start + microseconds 86400
  let complete := bars.length = 86400 / seconds ∧
    bars.zipIdx.all fun (c, i) => c.startTime.instant = start + i * microseconds seconds
  { utcDate := dateText (Calendar.date day)
    complete
    high := if complete then (bars.map Candle.high).max?.map text else none
    low := if complete then (bars.map Candle.low).min?.map text else none }

structure FrameContext where
  timeframe : Timeframe
  candleCount : ℕ
  segmentCandleCount : ℕ
  latestCompletedAt : Timestamp
  bias : Option Direction
  atr : ℚ
  emaFast : ℚ
  emaSlow : ℚ
  rsi : Option ℚ
  adx : Option ℚ
  pivots : List Pivot
  events : List StructureEvent
  nearestActiveZones : List Zone
  recentResolvedZones : List Zone
  liquidityPools : List LiquidityPool
  activeZoneCount : ℕ
  resolvedZoneCount : ℕ
  previousUtcDay : DayRange

def CandleSeries.last (series : CandleSeries) : Candle := series.candles.getLast series.nonempty

def frameContext (series : CandleSeries) (quoteMid : ℚ) (tickSize : ℚ := 1 / 100) : FrameContext :=
  let candles := series.candles
  let closes := candles.map Candle.close
  let s := structureOf candles
  let zones := zonesAt candles quoteMid
  let active := zones.filter fun zone => !zone.status.resolved
  let resolved := zones.filter fun zone => zone.status.resolved
  { timeframe := series.timeframe
    candleCount := candles.length
    segmentCandleCount := (candles.drop (boundary candles)).length
    latestCompletedAt := series.last.endTime
    bias := s.bias
    atr := text ((atr candles).getLast?.join.getD 0)
    emaFast := text ((Indicators.emaValues context 5 closes).getLast?.getD 0)
    emaSlow := text ((Indicators.emaValues context 19 closes).getLast?.getD 0)
    rsi := (Indicators.rsiValues context 14 closes).getLast?.join.map text
    adx := (Indicators.adxValues context 14 (candles.map numericBar)).getLast?.join.map text
    pivots := s.pivots.rtake 12
    events := s.events.rtake 12
    nearestActiveZones := (ranked active quoteMid).take 8
    recentResolvedZones := (resolved.mergeSort fun a b => resolvedText a ≤ resolvedText b).rtake 4
    liquidityPools := (liquidityPools s.pivots quoteMid tickSize).take 6
    activeZoneCount := active.length
    resolvedZoneCount := resolved.length
    previousUtcDay := previousDay candles series.timeframe.seconds series.last }

end ScalpingBot.Technical
