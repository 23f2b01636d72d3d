import Mathlib.Data.Rat.Defs
import Mathlib.Algebra.Order.Ring.Rat
import ScalpingBot.Library.Causal
import ScalpingBot.Library.Checked

/-! The indicators of python/indicators/core.py. The decimal context is a parameter, `round`: what it
    keeps of the exact result of an operation. -/

namespace ScalpingBot.Indicators

open Causal (transduce)

structure PriceBar where
  high : ℚ
  low : ℚ
  close : ℚ
  deriving DecidableEq

/-- `_require_period`. -/
def requirePeriod (period : ℤ) : Except String ℕ :=
  if period < 1 then .error "period must be positive" else .ok period.toNat

section

variable (round : ℚ → ℚ)

def add (a b : ℚ) : ℚ := round (a + b)
def sub (a b : ℚ) : ℚ := round (a - b)
def mul (a b : ℚ) : ℚ := round (a * b)
def div (a b : ℚ) : ℚ := round (a / b)

/-- `sum(values, Decimal(0))`. -/
def sum (values : List ℚ) : ℚ := values.foldl (add round) 0

def emaStep (alpha previous value : ℚ) : ℚ :=
  add round (mul round value alpha) (mul round previous (sub round 1 alpha))

def emaValues (period : ℕ) : List ℚ → List ℚ
  | [] => []
  | first :: rest =>
    let step := emaStep round (div round 2 (period + 1 : ℕ))
    first :: transduce step step first rest

def ema (values : List ℚ) (period : ℤ) : Except String (List ℚ) := do
  return emaValues round (← requirePeriod period) values

def trueRange (previous current : PriceBar) : ℚ :=
  max (max (sub round current.high current.low)
    (round |sub round current.high previous.close|)) (round |sub round current.low previous.close|)

def trueRanges : List PriceBar → List ℚ
  | [] => []
  | first :: rest =>
    sub round first.high first.low :: transduce (fun _ bar => bar) (trueRange round) first rest

/-- One step of Wilder's average. -/
def wilderStep (period : ℕ) (current value : ℚ) : ℚ :=
  div round (add round (mul round current (period - 1 : ℕ)) value) period

/-- The average of the first period. -/
def wilderSeed (period : ℕ) (values : List ℚ) : ℚ :=
  div round (sum round (values.take period)) period

def wilderValues (period : ℕ) (values : List ℚ) : List (Option ℚ) :=
  if values.length < period then List.replicate values.length none
  else
    let current := wilderSeed round period values
    List.replicate (period - 1) none ++ some current ::
      transduce (wilderStep round period) (fun current value => some (wilderStep round period current
        value)) current (values.drop period)

def wilderSmoothing (values : List ℚ) (period : ℤ) : Except String (List (Option ℚ)) := do
  return wilderValues round (← requirePeriod period) values

def atrWilder (bars : List PriceBar) (period : ℤ) : Except String (List (Option ℚ)) :=
  wilderSmoothing round (trueRanges round bars) period

/-- The `value` of `rsi_wilder`. -/
def rsiValue (gain loss : ℚ) : ℚ :=
  if loss = 0 then if gain > 0 then 100 else 50
  else sub round 100 (div round 100 (add round 1 (div round gain loss)))

/-- `gains` and `losses`: the change from a value to the next. -/
def moves : List ℚ → List (ℚ × ℚ)
  | [] => []
  | first :: rest => transduce (fun _ value => value) (fun previous value =>
      let change := sub round value previous
      (max change 0, max (round (-change)) 0)) first rest

/-- The averages of the gains and the losses after one more change. -/
def rsiStep (period : ℕ) (average move : ℚ × ℚ) : ℚ × ℚ :=
  (wilderStep round period average.1 move.1, wilderStep round period average.2 move.2)

def rsiOut (average : ℚ × ℚ) : Option ℚ := some (rsiValue round average.1 average.2)

def rsiValues (period : ℕ) (values : List ℚ) : List (Option ℚ) :=
  if values.length ≤ period then List.replicate values.length none
  else
    let moves := moves round values
    let average := (wilderSeed round period (moves.map Prod.fst),
      wilderSeed round period (moves.map Prod.snd))
    List.replicate period none ++ rsiOut round average ::
      transduce (rsiStep round period) (fun average move => rsiOut round (rsiStep round period average
        move)) average (moves.drop period)

def rsiWilder (values : List ℚ) (period : ℤ) : Except String (List (Option ℚ)) := do
  return rsiValues round (← requirePeriod period) values

/-- The directional movements of a bar, up and down. -/
def directionalMovement (previous current : PriceBar) : ℚ × ℚ :=
  let up := sub round current.high previous.high
  let down := sub round previous.low current.low
  (if up > down ∧ up > 0 then up else 0, if down > up ∧ down > 0 then down else 0)

/-- `plus_dm` and `minus_dm`. -/
def directionalMovements : List PriceBar → List (ℚ × ℚ)
  | [] => []
  | first :: rest => (0, 0) :: transduce (fun _ bar => bar) (directionalMovement round) first rest

def dxValue (tr plus minus : ℚ) : ℚ :=
  let plusDi := div round (mul round 100 plus) tr
  let minusDi := div round (mul round 100 minus) tr
  let denominator := add round plusDi minusDi
  if denominator = 0 then 0
  else div round (mul round 100 (round |sub round plusDi minusDi|)) denominator

/-- An entry of `dx`, which a true range of zero leaves out. -/
def dxEntry : Option ℚ → Option ℚ × Option ℚ → Option ℚ
  | some tr, (some plus, some minus) => if tr = 0 then none else some (dxValue round tr plus minus)
  | _, _ => none

def dxValues (period : ℕ) (bars : List PriceBar) : List (Option ℚ) :=
  let movements := directionalMovements round bars
  List.zipWith (dxEntry round) (wilderValues round period (trueRanges round bars))
    ((wilderValues round period (movements.map Prod.fst)).zip
      (wilderValues round period (movements.map Prod.snd)))

/-- The values of `dx` that were not left out. -/
def available (period : ℕ) (dx : List (Option ℚ)) : List ℚ := (dx.drop (period - 1)).filterMap id

def adxNext (period : ℕ) (current : ℚ) : Option ℚ → ℚ
  | some dx => wilderStep round period current dx
  | none => current

def adxOut (period : ℕ) (current : ℚ) : Option ℚ → Option ℚ
  | some dx => some (wilderStep round period current dx)
  | none => none

/-- The average of `dx`: it starts with the first period of available values. -/
def averageDx (period : ℕ) (dx : List (Option ℚ)) : List (Option ℚ) :=
  if (available period dx).length < period then List.replicate dx.length none
  else
    let current := wilderSeed round period (available period dx)
    List.replicate (2 * period - 2) none ++ some current ::
      transduce (adxNext round period) (adxOut round period) current (dx.drop (2 * period - 1))

def adxValues (period : ℕ) (bars : List PriceBar) : List (Option ℚ) :=
  if bars.length < period * 2 then List.replicate bars.length none
  else averageDx round period (dxValues round period bars)

def adx (bars : List PriceBar) (period : ℤ) : Except String (List (Option ℚ)) := do
  return adxValues round (← requirePeriod period) bars

end

end ScalpingBot.Indicators
