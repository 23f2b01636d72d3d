import Mathlib.Algebra.Order.Ring.Rat
import Mathlib.Data.Rat.Defs
import Mathlib.Tactic.Common
import ScalpingBot.Contracts
import ScalpingBot.Library.Rounded

/-! The screening simulator of python/backtest/variants.py: a pair of entry orders and the exit of the
    one that fills, decided bar by bar. The decimal context is a parameter, `round`: what it keeps of
    the exact result of an operation. -/

namespace ScalpingBot.Backtest

open Rounded

inductive EntryStyle where | stopBreakout | fadeLimit | confirmedStop | sweepReversal
  deriving DecidableEq

inductive ExitStyle where | stopMarket | stopLimit
  deriving DecidableEq

structure Bar where
  startTime : ℤ
  «open» : ℚ
  high : ℚ
  low : ℚ
  close : ℚ
  deriving DecidableEq

structure CostModel where
  entrySlip : ℚ
  exitOvershoot : ℚ
  spread : ℚ
  nonneg : 0 ≤ entrySlip ∧ 0 ≤ exitOvershoot ∧ 0 ≤ spread

structure Economics where
  dollarsPerPoint : ℚ
  commissionRoundTrip : ℚ
  consistent : 0 < dollarsPerPoint ∧ 0 ≤ commissionRoundTrip

/-- `GeometrySpec`: fixed distances, or multiples of the average range of the bars before. -/
inductive Geometry where
  | fixed (tp sl : ℚ)
  | atr (slAtr : ℚ) (tpAtr tpSlRatio : Option ℚ)

structure GeometrySpec where
  geometry : Geometry
  atrBars : ℕ := 14
  atrBars_pos : 1 ≤ atrBars := by decide

structure VariantSpec where
  entry : EntryStyle
  exit : ExitStyle
  geometry : GeometrySpec
  tickSize : ℚ := 1 / 100
  confirmBufferTicks : ℕ := 0
  sweepPierceTicks : ℕ := 2
  stopLimitCapTicks : ℕ := 30
  stopLimitEscalationBars : ℕ := 3
  limitPierceTicks : ℕ := 1
  expireBars : ℕ := 30
  windowBars : ℕ := 90
  breakevenAtTpFraction : Option ℚ := none
  trendFilterBars : ℕ := 0
  rangeFilterBars : ℕ := 0
  rangeFilterMaxSpanAtr : Option ℚ := none
  efficiencyRatioBars : ℕ := 60
  maxEfficiencyRatio : Option ℚ := none
  tick_pos : 0 < tickSize
  window_pos : 1 ≤ windowBars
  sweep_pos : 1 ≤ sweepPierceTicks
  breakeven_pos : ∀ f ∈ breakevenAtTpFraction, 0 < f

structure SetupInput where
  buyStop : ℚ
  sellStop : ℚ

/-- `Status`. -/
inductive SetupStatus where
  | win | loss | expired | «open» | noData | noAtr | noTrendData | noRangeData | noRegimeData
  deriving DecidableEq

structure SetupOutcome where
  status : SetupStatus
  reason : String
  side : Option OrderSide := none
  fillPrice : Option ℚ := none
  exitPrice : Option ℚ := none
  exitTime : Option ℤ := none
  holdBars : Option ℕ := none
  atr : Option ℚ := none
  pnlPrice : ℚ := 0
  netUsd : ℚ := 0
  deriving DecidableEq

section

variable (round : ℚ → ℚ)

/-- The price that lies a distance in the direction of the side from another. -/
def ahead (side : OrderSide) (price distance : ℚ) : ℚ :=
  match side with
  | .buy => add round price distance
  | .sell => sub round price distance

/-- The price that lies a distance against the direction of the side from another. -/
def behind (side : OrderSide) (price distance : ℚ) : ℚ :=
  match side with
  | .buy => sub round price distance
  | .sell => add round price distance

/-- `_signed_move`. -/
def signedMove (side : OrderSide) (fill exitPrice : ℚ) : ℚ :=
  match side with
  | .buy => sub round exitPrice fill
  | .sell => sub round fill exitPrice

/-! ### The exit -/

inductive StopExitResult where
  | filled (price : ℚ) (reason : String)
  | triggeredUnfilled (reason : String)
  | notTriggered
  deriving DecidableEq

/-- Whether a bar triggers the stop. -/
def stopTriggered (side : OrderSide) (stopPrice : ℚ) (bar : Bar) : Bool :=
  match side with
  | .buy => bar.low ≤ stopPrice ∨ bar.open ≤ stopPrice
  | .sell => bar.high ≥ stopPrice ∨ bar.open ≥ stopPrice

/-- The exit at the market of a stop that a bar triggers. -/
def stopMarketExit (side : OrderSide) (stopPrice : ℚ) (bar : Bar) (costs : CostModel) :
    StopExitResult :=
  let gapped : Bool := match side with
    | .buy => bar.open ≤ stopPrice
    | .sell => bar.open ≥ stopPrice
  let base := if gapped then bar.open else stopPrice
  .filled (behind round side base costs.exitOvershoot) "STOP_MARKET_EXIT"

/-- The exit of a stop that a bar triggers by a limit order at its cap. -/
def stopLimitExit (side : OrderSide) (stopPrice : ℚ) (bar : Bar) (cap : ℚ) : StopExitResult :=
  let limitPrice := behind round side stopPrice cap
  match side with
  | .buy =>
    if bar.open < limitPrice then
      if bar.high ≥ limitPrice then .filled limitPrice "STOP_LIMIT_RECOVERY_FILL"
      else .triggeredUnfilled "STOP_LIMIT_GAP_BEYOND_CAP"
    else if bar.low ≤ limitPrice then .filled limitPrice "STOP_LIMIT_EXIT"
    else .triggeredUnfilled "STOP_LIMIT_ARMED"
  | .sell =>
    if bar.open > limitPrice then
      if bar.low ≤ limitPrice then .filled limitPrice "STOP_LIMIT_RECOVERY_FILL"
      else .triggeredUnfilled "STOP_LIMIT_GAP_BEYOND_CAP"
    else if bar.high ≥ limitPrice then .filled limitPrice "STOP_LIMIT_EXIT"
    else .triggeredUnfilled "STOP_LIMIT_ARMED"

/-- `_stop_exit_price`. -/
def stopExitPrice (side : OrderSide) (stopPrice : ℚ) (bar : Bar) (costs : CostModel)
    (style : ExitStyle) (cap : ℚ) : StopExitResult :=
  if stopTriggered side stopPrice bar then
    match style with
    | .stopMarket => stopMarketExit round side stopPrice bar costs
    | .stopLimit => stopLimitExit round side stopPrice bar cap
  else .notTriggered

/-- `_target_exit`. -/
def targetExit (side : OrderSide) (target : ℚ) (bar : Bar) : Bool :=
  match side with
  | .buy => bar.high ≥ target
  | .sell => bar.low ≤ target

/-- The variables of the loop of `_resolve_exit`. -/
structure ExitState where
  stopPrice : ℚ
  armedOffset : Option ℕ
  beTrigger : Option ℚ
  deriving DecidableEq

/-- A position that the loop closes. -/
structure Close where
  price : ℚ
  offset : ℕ
  reason : String
  deriving DecidableEq

/-- What the loop does at a bar. -/
inductive ExitStep where
  | close (c : Close)
  | next (s : ExitState)
  deriving DecidableEq

/-- The stop after a bar that reaches the breakeven trigger. -/
def breakeven (side : OrderSide) (fillPrice : ℚ) (s : ExitState) (offset : ℕ) (bar : Bar) :
    ExitState :=
  match s.beTrigger with
  | some trigger =>
    if offset > 0 ∧ targetExit side trigger bar then
      { s with stopPrice := fillPrice, beTrigger := none }
    else s
  | none => s

/-- One pass of the loop of `_resolve_exit`. -/
def resolveBar (side : OrderSide) (fillPrice targetPrice cap : ℚ) (spec : VariantSpec)
    (costs : CostModel) (s : ExitState) (offset : ℕ) (bar : Bar) : ExitStep :=
  match stopExitPrice round side s.stopPrice bar costs spec.exit cap with
  | .filled price reason => .close ⟨price, offset, reason⟩
  | .triggeredUnfilled _ =>
    let armed := s.armedOffset.getD offset
    if spec.stopLimitEscalationBars > 0 ∧ offset ≥ armed + spec.stopLimitEscalationBars then
      .close ⟨bar.close, offset, "STOP_LIMIT_ESCALATED_CLOSE"⟩
    else .next { s with armedOffset := some armed }
  | .notTriggered =>
    if s.armedOffset.isSome then .next s
    else
      let s := breakeven side fillPrice s offset bar
      if targetExit side targetPrice bar then .close ⟨targetPrice, offset, "TARGET_EXIT"⟩
      else .next s

/-- The loop from an offset on: how it closes the position, or the variables at its end. -/
def resolveLoop (side : OrderSide) (fillPrice targetPrice cap : ℚ) (spec : VariantSpec)
    (costs : CostModel) (s : ExitState) (offset : ℕ) : List Bar → ExitStep
  | [] => .next s
  | bar :: rest =>
    match resolveBar round side fillPrice targetPrice cap spec costs s offset bar with
    | .close c => .close c
    | .next s => resolveLoop side fillPrice targetPrice cap spec costs s (offset + 1) rest

/-- The variables before the loop. -/
def exitStart (side : OrderSide) (fillPrice tpDistance slDistance : ℚ) (spec : VariantSpec) :
    ExitState where
  stopPrice := behind round side fillPrice slDistance
  armedOffset := none
  beTrigger := spec.breakevenAtTpFraction.map fun fraction =>
    ahead round side fillPrice (mul round fraction tpDistance)

/-- A position's exit: status, price, index of the bar and reason. -/
structure Exit where
  status : SetupStatus
  price : ℚ
  index : ℕ
  reason : String
  deriving DecidableEq

/-- `_resolve_exit`; the window has a bar, since an entry was found in it. -/
def resolveExit (side : OrderSide) (fillPrice tpDistance slDistance : ℚ) (bars : List Bar)
    (entryIndex : ℕ) (spec : VariantSpec) (costs : CostModel) : Option Exit :=
  let targetPrice := ahead round side fillPrice tpDistance
  let cap := mul round spec.stopLimitCapTicks spec.tickSize
  match resolveLoop round side fillPrice targetPrice cap spec costs
      (exitStart round side fillPrice tpDistance slDistance spec) 0 (bars.drop entryIndex) with
  | .close c =>
    let move := signedMove round side fillPrice c.price
    some ⟨if move > 0 then .win else .loss, c.price, entryIndex + c.offset, c.reason⟩
  | .next s => bars.getLast?.map fun last =>
    ⟨.open, last.close, bars.length - 1,
      if s.armedOffset.isSome then "STOP_LIMIT_ESCALATED_CLOSE" else "OPEN_AT_WINDOW_END"⟩

/-! ### The entry -/

/-- `_legs_for`: the levels of the buy leg and of the sell leg. -/
def legsFor (spec : VariantSpec) (setup : SetupInput) : ℚ × ℚ :=
  match spec.entry with
  | .fadeLimit | .sweepReversal => (setup.sellStop, setup.buyStop)
  | .stopBreakout | .confirmedStop => (setup.buyStop, setup.sellStop)

/-- `_triggered`. -/
def triggered (spec : VariantSpec) (side : OrderSide) (level : ℚ) (bar : Bar) : Bool :=
  let pierce := mul round spec.limitPierceTicks spec.tickSize
  match spec.entry, side with
  | .fadeLimit, .buy => bar.low ≤ sub round level pierce
  | .fadeLimit, .sell => bar.high ≥ add round level pierce
  | _, .buy => bar.high ≥ level
  | _, .sell => bar.low ≤ level

/-- `_fill_price_for`. -/
def fillPriceFor (spec : VariantSpec) (costs : CostModel) (side : OrderSide) (level : ℚ)
    (bar : Bar) : ℚ :=
  match spec.entry with
  | .fadeLimit => level
  | .confirmedStop | .sweepReversal => ahead round side bar.open costs.entrySlip
  | .stopBreakout => ahead round side level costs.entrySlip

/-- Whether a leg that fills at the bar is stopped in it, as `_loser_first` asks. -/
def loses (spec : VariantSpec) (costs : CostModel) (slDistance : ℚ) (side : OrderSide) (level : ℚ)
    (bar : Bar) : Bool :=
  let stopPrice := behind round side (fillPriceFor round spec costs side level bar) slDistance
  match side with
  | .buy => bar.low ≤ stopPrice
  | .sell => bar.high ≥ stopPrice

/-- `_loser_first`: the first of the two legs that the bar stops, else the first. -/
def loserFirst (spec : VariantSpec) (costs : CostModel) (slDistance buyLevel sellLevel : ℚ)
    (bar : Bar) : OrderSide × ℚ :=
  if loses round spec costs slDistance .buy buyLevel bar then (.buy, buyLevel)
  else if loses round spec costs slDistance .sell sellLevel bar then (.sell, sellLevel)
  else (.buy, buyLevel)

/-- The signals of the styles that enter at the open of the next bar. -/
def signal (spec : VariantSpec) (side : OrderSide) (level : ℚ) (bar : Bar) : Bool :=
  let buffer := mul round spec.confirmBufferTicks spec.tickSize
  let sweep := mul round spec.sweepPierceTicks spec.tickSize
  match spec.entry, side with
  | .confirmedStop, .buy => bar.close ≥ add round level buffer
  | .confirmedStop, .sell => bar.close ≤ sub round level buffer
  | _, .buy => bar.low ≤ sub round level sweep ∧ bar.close > level
  | _, .sell => bar.high ≥ add round level sweep ∧ bar.close < level

/-- The loop over the bars up to the horizon: the leg that fills, and the index of its bar. -/
def findEntry (spec : VariantSpec) (costs : CostModel) (slDistance buyLevel sellLevel : ℚ)
    (allowed : OrderSide → Bool) (armed : Option (OrderSide × ℚ)) (offset : ℕ) :
    List Bar → Option (OrderSide × ℚ × ℕ)
  | [] => none
  | bar :: rest =>
    match spec.entry with
    | .confirmedStop | .sweepReversal =>
      match armed with
      | some (side, level) => some (side, level, offset)
      | none =>
        let buySignal := allowed .buy ∧ signal round spec .buy buyLevel bar
        let sellSignal := allowed .sell ∧ signal round spec .sell sellLevel bar
        let armed :=
          if buySignal ∧ sellSignal then none
          else if buySignal then some (.buy, buyLevel)
          else if sellSignal then some (.sell, sellLevel)
          else none
        findEntry spec costs slDistance buyLevel sellLevel allowed armed (offset + 1) rest
    | .stopBreakout | .fadeLimit =>
      let buyHit := allowed .buy ∧ triggered round spec .buy buyLevel bar
      let sellHit := allowed .sell ∧ triggered round spec .sell sellLevel bar
      if buyHit ∧ sellHit then
        let (side, level) := loserFirst round spec costs slDistance buyLevel sellLevel bar
        some (side, level, offset)
      else if buyHit then some (.buy, buyLevel, offset)
      else if sellHit then some (.sell, sellLevel, offset)
      else findEntry spec costs slDistance buyLevel sellLevel allowed armed (offset + 1) rest

/-! ### The filters -/

/-- `_atr`: the average range of the last bars, if there are as many as required. -/
def averageRange (prior : List Bar) (required : ℕ) : Option ℚ :=
  if prior.length < required then none
  else
    let window := prior.drop (prior.length - required)
    let total := (window.map fun bar => sub round bar.high bar.low).foldl (add round) 0
    some (div round total window.length)

/-- The bars before an index, as many as asked for where there are. -/
def barsBefore (bars : List Bar) (index count : ℕ) : List Bar :=
  (bars.take index).drop (index - count)

/-- The distances of the target and of the stop, and the average range they come from. -/
def distances (spec : VariantSpec) (bars : List Bar) (index : ℕ) :
    Option (ℚ × ℚ × Option ℚ) :=
  match spec.geometry.geometry with
  | .fixed tp sl => some (tp, sl, none)
  | .atr slAtr tpAtr tpSlRatio =>
    match averageRange round (barsBefore bars index spec.geometry.atrBars)
        spec.geometry.atrBars with
    | none => none
    | some atr =>
      if atr ≤ 0 then none
      else
        let sl := mul round slAtr atr
        match tpAtr, tpSlRatio with
        | some tpAtr, _ => some (mul round tpAtr atr, sl, some atr)
        | none, some ratio => some (mul round ratio sl, sl, some atr)
        | none, none => none

/-- The outcome by which the filter of the range rejects a setup. -/
def rangeFilter (spec : VariantSpec) (bars : List Bar) (index : ℕ) : Option SetupOutcome :=
  match spec.rangeFilterMaxSpanAtr with
  | none => none
  | some maximum =>
    if spec.rangeFilterBars = 0 then none
    else
      let spanBars := barsBefore bars index spec.rangeFilterBars
      match averageRange round spanBars spec.rangeFilterBars with
      | none => some { status := .noRangeData, reason := "INSUFFICIENT_RANGE_PRIOR_BARS" }
      | some spanAtr =>
        if spanAtr ≤ 0 then
          some { status := .noRangeData, reason := "INSUFFICIENT_RANGE_PRIOR_BARS" }
        else
          let highs := spanBars.map Bar.high
          let lows := spanBars.map Bar.low
          let span := sub round (highs.foldl max (highs.headD 0)) (lows.foldl min (lows.headD 0))
          if span > mul round maximum spanAtr then
            some { status := .noRangeData, reason := "RANGE_FILTER_SPAN_TOO_WIDE" }
          else none

/-- The outcome by which the filter of the efficiency ratio rejects a setup. -/
def regimeFilter (spec : VariantSpec) (bars : List Bar) (index : ℕ) : Option SetupOutcome :=
  match spec.maxEfficiencyRatio with
  | none => none
  | some maximum =>
    let count := spec.efficiencyRatioBars
    if index < count + 1 then
      some { status := .noRegimeData, reason := "INSUFFICIENT_EFFICIENCY_PRIOR_BARS" }
    else
      let closes := (barsBefore bars index (count + 1)).map Bar.close
      let netMove := round |sub round (closes.getLastD 0) (closes.headD 0)|
      let steps := List.zipWith (fun a b => round |sub round b a|) closes closes.tail
      let pathLength := steps.foldl (add round) 0
      let efficiency := if pathLength = 0 then 1 else div round netMove pathLength
      if efficiency > maximum then
        some { status := .noRegimeData, reason := "EFFICIENCY_RATIO_TOO_HIGH" }
      else none

/-- The sides that the trend allows, if the bars to tell it by are there. -/
def trendAllows (spec : VariantSpec) (bars : List Bar) (index : ℕ) : Option (OrderSide → Bool) :=
  if spec.trendFilterBars = 0 then some fun _ => true
  else
    if index < 1 + spec.trendFilterBars then none
    else
      match bars[index - 1]?, bars[index - 1 - spec.trendFilterBars]? with
      | some last, some first =>
        some fun side => if last.close ≥ first.close then side = .buy else side = .sell
      | _, _ => none

/-- `simulate_setup`. -/
def simulateSetup (setup : SetupInput) (bars : List Bar) (index : ℕ) (spec : VariantSpec)
    (costs : CostModel) (economics : Economics) : SetupOutcome :=
  let window := (bars.drop index).take spec.windowBars
  if window = [] then { status := .noData, reason := "NO_FORWARD_BARS" }
  else
    match distances round spec bars index with
    | none => { status := .noAtr, reason := "INSUFFICIENT_PRIOR_BARS" }
    | some (tpDistance, slDistance, atr) =>
      match rangeFilter round spec bars index, regimeFilter round spec bars index,
          trendAllows spec bars index with
      | some rejected, _, _ => rejected
      | none, some rejected, _ => rejected
      | none, none, none => { status := .noTrendData, reason := "INSUFFICIENT_TREND_PRIOR_BARS" }
      | none, none, some allowed =>
        let horizon := min spec.expireBars window.length
        let (buyLevel, sellLevel) := legsFor spec setup
        match findEntry round spec costs slDistance buyLevel sellLevel allowed none 0
            (window.take horizon) with
        | none => { status := .expired, reason := "NO_FILL_BEFORE_HORIZON", atr }
        | some (side, level, entryIndex) =>
          match window[entryIndex]? with
          | none => { status := .expired, reason := "NO_FILL_BEFORE_HORIZON", atr }
          | some bar =>
            let fillPrice := fillPriceFor round spec costs side level bar
            match resolveExit round side fillPrice tpDistance slDistance window entryIndex spec
                costs with
            | none => { status := .expired, reason := "NO_FILL_BEFORE_HORIZON", atr }
            | some exit =>
              let pnl := signedMove round side fillPrice exit.price
              { status := exit.status
                reason := exit.reason
                side := some side
                fillPrice := some fillPrice
                exitPrice := some exit.price
                exitTime := window[exit.index]?.map Bar.startTime
                holdBars := some (exit.index - entryIndex)
                atr
                pnlPrice := pnl
                netUsd := sub round (mul round pnl economics.dollarsPerPoint)
                  economics.commissionRoundTrip }

end

end ScalpingBot.Backtest
