import Mathlib.Data.Rat.Floor
import ScalpingBot.Backtest.Tape
import ScalpingBot.Library.Rounded

/-! The paired experiments of python/backtest/paired.py: one intent replayed over a tape, with its own
    entries or from the fill that was observed. -/

namespace ScalpingBot.Backtest

open Evaluation (Quote sign)
open Rounded

structure Leg where
  side : OrderSide
  accepted : ℤ
  entry : ℚ
  sl : ℚ
  tp : ℚ
  fillTime : Option ℤ
  fillPrice : Option ℚ
  positive : 0 < entry ∧ 0 < sl ∧ 0 < tp

structure Setup where
  tick : ℚ
  modelBuy : ℚ
  modelSell : ℚ
  legs : List Leg
  positive : 0 < tick ∧ 0 < modelBuy ∧ 0 < modelSell

structure Assumptions where
  latencyMs : ℤ := 500
  cancelMs : ℤ := 500
  maxGapMs : ℤ := 3000
  spreadMultiplier : ℚ := 1
  stopSlippage : ℚ := 65 / 100

inductive Status where
  | noStartEvidence | censoredGap | noAcceptanceEvidence | censoredEntryQuoteMismatch
  | censoredOcoRace | censoredIncompletePair | sl | tp | openAtCutoff | pendingAtCutoff
  deriving DecidableEq

structure Outcome where
  status : Status
  time : ℤ
  side : Option OrderSide := none
  filledAt : Option ℤ := none
  grossPriceOverSl : Option ℚ := none
  deriving DecidableEq

/-- The ways in which the loop over the quotes ends early. -/
inductive Stop where
  | outcome (o : Outcome)
  | raised (error : String)
  deriving DecidableEq

/-- The variables of the loop over the quotes. -/
structure ReplayState where
  position : Option Leg
  fillAt : Option ℤ
  fillPrice : Option ℚ
  activated : List OrderSide := []
  previous : ℤ
  deferredClose : Option Outcome := none

section

variable (context : Context)

/-- `prices`: the bid and the ask under an assumption about the spread. -/
def prices (quote : Quote) (a : Assumptions) : ℚ × ℚ :=
  let r := context.round
  let half := div r (mul r (sub r quote.ask quote.bid) a.spreadMultiplier) 2
  let mid := div r (add r quote.bid quote.ask) 2
  (sub r mid half, add r mid half)

/-- Whether a quote trades through the limit of a leg by a tick. -/
def hits (setup : Setup) (a : Assumptions) (quote : Quote) (leg : Leg) : Bool :=
  let (bid, ask) := prices context quote a
  match leg.side with
  | .buy => ask ≤ sub context.round leg.entry setup.tick
  | .sell => bid ≥ add context.round leg.entry setup.tick

/-- The distance of the target under a factor, on the grid. -/
def targetOf (setup : Setup) (leg : Leg) (tpFactor : ℚ) : ℚ :=
  let r := context.round
  mul r (⌊div r (mul r leg.tp tpFactor) setup.tick⌋ : ℚ) setup.tick

/-- The move of a position's executable price since its fill. -/
def moveOf (a : Assumptions) (leg : Leg) (fillPrice : ℚ) (quote : Quote) : ℚ :=
  let (bid, ask) := prices context quote a
  let executable := match leg.side with
    | .buy => bid
    | .sell => ask
  mul context.round (sub context.round executable fillPrice) (sign leg.side)

/-- What a quote does to a position. -/
def exitStatus (a : Assumptions) (leg : Leg) (fillPrice target : ℚ) (quote : Quote) : Option Status :=
  let move := moveOf context a leg fillPrice quote
  if move ≤ context.round (-leg.sl) then some .sl
  else if move ≥ target then some .tp
  else none

/-- The legs of the experiment, with the entries of the model or as they were ordered. -/
def legsOf (setup : Setup) (preserveEntries : Bool) : List Leg :=
  if preserveEntries then
    setup.legs.map fun leg => match leg.side with
      | .buy => { leg with
          entry := setup.modelBuy
          positive := ⟨setup.positive.2.1, leg.positive.2⟩ }
      | .sell => { leg with
          entry := setup.modelSell
          positive := ⟨setup.positive.2.2, leg.positive.2⟩ }
  else setup.legs

def Assumptions.valid (a : Assumptions) (tpFactor : ℚ) : Bool :=
  ¬ (tpFactor ≤ 0 ∨ a.maxGapMs ≤ 0 ∨ a.latencyMs < 0 ∨ a.cancelMs < 0 ∨ a.spreadMultiplier < 1 ∨
    a.stopSlippage < 0)

section

variable (setup : Setup) (tape : Tape) (stop : ℤ) (a : Assumptions) (legs : List Leg)
  (tpFactor : ℚ) (anchor : Option Leg)

/-- Whether a leg would have been executed at once by the quote known at its acceptance. -/
def mismatched (prior : Quote) (leg : Leg) : Bool :=
  let (pbid, pask) := prices context prior a
  match leg.side with
  | .buy => leg.entry ≥ pask
  | .sell => leg.entry ≤ pbid

/-- A leg is checked against the quote that was known at its acceptance. -/
def activate (quote : Quote) (s : ReplayState) (leg : Leg) : Except Stop ReplayState :=
  if leg.side ∈ s.activated then .ok s
  else
    match tape.quotes[bisectRight tape.times leg.accepted - 1]? with
    | none => .error (.outcome { status := .noAcceptanceEvidence, time := quote.time })
    | some prior =>
      if bisectRight tape.times leg.accepted = 0 ∨
          tape.broken prior.time leg.accepted a.maxGapMs then
        .error (.outcome { status := .noAcceptanceEvidence, time := quote.time })
      else if mismatched context a prior leg then
        .error (.outcome { status := .censoredEntryQuoteMismatch, time := quote.time })
      else .ok { s with activated := leg.side :: s.activated }

/-- Whether a leg is out of the race at a quote. -/
def settled (quote : Quote) (s : ReplayState) (leg : Leg) : Bool :=
  match s.position with
  | none => false
  | some position => leg.side = position.side ∨ quote.time > s.fillAt.getD 0 + a.cancelMs

/-- What the quote does to a leg that is active. -/
def fillLeg (quote : Quote) (s : ReplayState) (leg : Leg) : Except Stop ReplayState :=
  if settled a quote s leg then .ok s
  else if ¬ hits context setup a quote leg then .ok s
  else
    match s.position with
    | some position =>
      .error (.outcome {
        status := .censoredOcoRace
        time := quote.time
        side := some position.side
        filledAt := s.fillAt })
    | none =>
      if legs.any fun x => quote.time < x.accepted + a.latencyMs then
        .error (.outcome {
          status := .censoredIncompletePair
          time := quote.time
          side := some leg.side
          filledAt := some quote.time })
      else .ok { s with
        position := some leg
        fillAt := some quote.time
        fillPrice := some leg.entry }

/-- One pass of the loop over the legs. -/
def passLeg (quote : Quote) (s : ReplayState) (leg : Leg) : Except Stop ReplayState :=
  if quote.time < leg.accepted + a.latencyMs then .ok s
  else do fillLeg context setup a legs quote (← activate context tape a quote s leg) leg

/-- What the quote does to a position that is filled. -/
def closePosition (quote : Quote) (s : ReplayState) (leg : Leg) (fillAt : ℤ) (fillPrice : ℚ) :
    Except Stop ReplayState :=
  let cancelProven : Bool := anchor.isSome ∨ quote.time > fillAt + a.cancelMs
  match s.deferredClose with
  | some result => if cancelProven then .error (.outcome result) else .ok s
  | none =>
    let target := targetOf context setup leg tpFactor
    if target ≤ 0 then .error (.raised "TARGET_TOO_SMALL")
    else
      match exitStatus context a leg fillPrice target quote with
      | none => .ok s
      | some status =>
        let r := context.round
        let pnl := if status = .sl then
            sub r (moveOf context a leg fillPrice quote) a.stopSlippage
          else target
        let result : Outcome := {
          status
          time := quote.time
          side := some leg.side
          filledAt := some fillAt
          grossPriceOverSl := some (div r pnl leg.sl) }
        if cancelProven then .error (.outcome result)
        else .ok { s with deferredClose := some result }

/-- What the quote does to what is there after the legs of the race. -/
def settle (quote : Quote) (s : ReplayState) : Except Stop ReplayState :=
  match s.position, s.fillAt, s.fillPrice with
  | some leg, some fillAt, some fillPrice =>
    closePosition context setup a tpFactor anchor quote s leg fillAt fillPrice
  | _, _, _ => .ok s

/-- The legs that can be filled: none where the fill is given. -/
def racing : List Leg := if anchor.isSome then [] else legs

/-- One pass of the loop over the quotes. -/
def passQuote (s : ReplayState) (quote : Quote) : Except Stop ReplayState :=
  if tape.broken s.previous quote.time a.maxGapMs then
    .error (.outcome {
      status := .censoredGap
      time := quote.time
      side := s.position.map Leg.side
      filledAt := s.fillAt })
  else do
    settle context setup a tpFactor anchor quote
      (← (racing legs anchor).foldlM (passLeg context setup tape a legs quote)
        { s with previous := quote.time })

/-- The loop over the quotes, up to the cutoff. -/
def replayLoop : List Quote → ReplayState → Except Stop ReplayState
  | [], s => .ok s
  | quote :: rest, s =>
    if quote.time ≥ stop then .ok s
    else do replayLoop rest (← passQuote context setup tape a legs tpFactor anchor s quote)

/-- What is reported at the cutoff. -/
def conclude (s : ReplayState) : Outcome :=
  { status :=
      if tape.broken s.previous stop a.maxGapMs then .censoredGap
      else if s.position.isSome then .openAtCutoff
      else .pendingAtCutoff
    time := stop
    side := s.position.map Leg.side
    filledAt := s.fillAt }

/-- The replay from its start on. -/
def replayFrom (start : ℤ) : Except String Outcome :=
  let count := bisectRight tape.times start
  match tape.quotes[count - 1]? with
  | none => .ok { status := .noStartEvidence, time := start }
  | some prior =>
    if count = 0 ∨ tape.broken prior.time start a.maxGapMs ∨ start ∈ tape.invalid then
      .ok { status := .noStartEvidence, time := start }
    else
      match replayLoop context setup tape stop a legs tpFactor anchor (tape.quotes.drop count)
        { position := anchor
          fillAt := anchor.bind Leg.fillTime
          fillPrice := anchor.bind Leg.fillPrice
          previous := start } with
      | .error (.outcome o) => .ok o
      | .error (.raised error) => .error error
      | .ok s => .ok (conclude tape stop a s)

end

/-- `start`: the time of the anchor's fill, or the first acceptance. -/
def startOf (legs : List Leg) : Option Leg → Option ℤ
  | some leg => leg.fillTime
  | none => (legs.map Leg.accepted).min?

/-- `replay`. -/
def replay (setup : Setup) (tape : Tape) (stop : ℤ) (a : Assumptions) (preserveEntries : Bool)
    (tpFactor : ℚ) (anchor : Option Leg) : Except String Outcome := do
  require (a.valid tpFactor) "ASSUMPTIONS_INVALID"
  let legs := legsOf setup preserveEntries
  match startOf legs anchor with
  | none => return { status := .noStartEvidence, time := stop }
  | some start =>
    if start ≥ stop then return { status := .noStartEvidence, time := stop }
    else replayFrom context setup tape stop a legs tpFactor anchor start

end

end ScalpingBot.Backtest
