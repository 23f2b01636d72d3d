import Mathlib.Data.List.DropRight
import ScalpingBot.Library.Journal
import ScalpingBot.Library.Window

/-! The open-trade metrics of a recording: each side has a leg whose extrema every quote moves, a history
    of its snapshots in the order of arrival, and a way back to one of them when the close of a trade is
    reported after later quotes. -/

namespace ScalpingBot.FlightMetrics

/-- Microseconds. -/
abbrev Instant := ℤ

def seconds (n : ℕ) : Instant := n * 1000000

/-! ### Setups and quotes -/

inductive Side where
  | buy
  | sell
  deriving DecidableEq

structure Fill (D : Type) where
  price : D
  volume : D
  lastFill : Instant
  deriving DecidableEq

structure Order (D : Type) where
  side : Side
  entryPrice : D
  stopLoss : D
  takeProfit : D
  fill : Option (Fill D)
  deriving DecidableEq

/-- A position, `opened` in the state `OPEN`, with its protection, `verified` or not. -/
structure Protection (D : Type) where
  side : Side
  opened : Bool
  volume : D
  updatedAt : Option Instant
  verified : Bool
  brokerTp : Option D
  brokerSl : Option D
  observedAt : Option Instant
  deriving DecidableEq

/-- A trade by the side that opened it. -/
structure ClosedTrade where
  side : Side
  closedAt : Instant
  deriving DecidableEq

/-- A setup as the database gives it; all its other parts only enter its digest. -/
structure Setup (D : Type) where
  orders : List (Order D)
  protection : List (Protection D)
  closedTrades : List ClosedTrade
  others : String
  deriving DecidableEq

/-- A quote of the broker, as far as its times and prices can be read, or a reconnect. -/
structure BrokerQuote (D : Type) where
  isQuote : Bool
  sourceTime : Option Instant
  receivedAt : Option Instant
  bid : Option D
  ask : Option D
  bidUpdated : Bool
  askUpdated : Bool

/-- What the cost model gives: a value, an error that the metrics pass over, or one that ends the
    quote. -/
inductive Net (D : Type) where
  | value (pips : D)
  | unsupported
  | broken
  deriving DecidableEq

/-- Decimals in the context of the recorder, and what it reads of the metadata of the broker. -/
structure Platform (D μ : Type) where
  zero : D
  add : D → D → D
  sub : D → D → D
  neg : D → D
  div : D → D → D
  abs : D → D
  lt : D → D → Bool
  pipSize : μ → Option D
  estimateNetPips : μ → (entry mark volume : D) → Side → Net D

/-! ### Legs -/

/-- What one quote contributes to a leg. -/
structure Sample (D : Type) where
  source : Instant
  move : D
  toTarget : D
  toStop : D
  net : Net D
  deriving DecidableEq

structure Excursion (D : Type) where
  samples : ℕ
  mfePips : Option D
  maePips : Option D
  bestModeledNetPips : Option D
  closestTpPips : Option D
  closestSlPips : Option D
  deriving DecidableEq

/-- A leg; no step reads which quotes it has `seen`. -/
structure Leg (D : Type) where
  basis : D × D
  quoteAt : Instant
  excursion : Excursion D
  seen : List (Sample D)
  deriving DecidableEq

/-- Why a record was not written: the budget, which the recording catches, or the file system. -/
inductive Failure where
  | value
  | os
  deriving DecidableEq

structure Snapshot (D : Type) where
  at' : Instant
  side : Side
  leg : Leg D
  deriving DecidableEq

/-- A recording, with the number of records that it has tried to write. -/
structure Flight (D : Type) where
  setup : Setup D
  snapshot : Option (Setup D)
  legs : Side → Option (Leg D)
  metricHistory : List (Snapshot D)
  sideTimes : Option Instant × Option Instant
  lastQuote : Option Instant
  final : Bool
  gaps : ℕ
  appends : ℕ

def Flight.new {D : Type} (setup : Setup D) : Flight D where
  setup
  snapshot := none
  legs _ := none
  metricHistory := []
  sideTimes := (none, none)
  lastQuote := none
  final := false
  gaps := 0
  appends := 0

variable {D μ : Type} [DecidableEq D] (platform : Platform D μ)

/-! ### Extrema -/

def max' (a b : D) : D := if platform.lt a b then b else a

def min' (a b : D) : D := if platform.lt b a then b else a

def Excursion.none' : Excursion D := ⟨0, none, none, none, none, none⟩

/-- The metrics after one more quote; a net that cannot be modeled leaves the best one. -/
def Excursion.add (x : Excursion D) (s : Sample D) : Excursion D where
  samples := x.samples + 1
  mfePips := some (match x.mfePips with
    | some mfe => max' platform (max' platform platform.zero s.move) mfe
    | none => max' platform platform.zero s.move)
  maePips := some (match x.maePips with
    | some mae => min' platform (min' platform platform.zero s.move) mae
    | none => min' platform platform.zero s.move)
  bestModeledNetPips := match s.net, x.bestModeledNetPips with
    | .value net, some best => some (max' platform net best)
    | .value net, none => some net
    | _, best => best
  closestTpPips := some (match x.closestTpPips with
    | some tp => min' platform s.toTarget tp
    | none => s.toTarget)
  closestSlPips := some (match x.closestSlPips with
    | some sl => min' platform s.toStop sl
    | none => s.toStop)

/-- The metrics that some quotes make. -/
def replay (seen : List (Sample D)) : Excursion D := seen.foldl (Excursion.add platform) Excursion.none'

/-! ### Records -/

/-- The n-th record that is tried: written, or why not. -/
abbrev Disk := ℕ → Option Failure

def append (disk : Disk) (f : Flight D) : Flight D × Option Failure :=
  ({ f with appends := f.appends + 1 }, disk f.appends)

def gap (disk : Disk) (f : Flight D) : Flight D × Option Failure :=
  if f.final then (f, none) else append disk { f with gaps := f.gaps + 1 }

def setLeg (f : Flight D) (side : Side) (leg : Option (Leg D)) : Flight D :=
  { f with legs := Function.update f.legs side leg }

omit [DecidableEq D] in
theorem setLeg_self (f : Flight D) (side : Side) (leg : Option (Leg D)) :
    (setLeg f side leg).legs side = leg := Function.update_self _ _ _

omit [DecidableEq D] in
theorem setLeg_of_ne {f : Flight D} {side other : Side} {leg : Option (Leg D)} (h : other ≠ side) :
    (setLeg f side leg).legs other = f.legs other := Function.update_of_ne h _ _

/-! ### Updates -/

/-- The latest snapshot of the side before the close, with the basis of the leg. -/
def before (f : Flight D) (trade : ClosedTrade) (leg : Leg D) : Option (Snapshot D) :=
  f.metricHistory.reverse.find? fun v =>
    v.side = trade.side && v.at' < trade.closedAt && v.leg.basis = leg.basis

/-- One closed trade: a leg that ends before the close stays, another one goes back to a snapshot or
    away. -/
def close (disk : Disk) (f : Flight D) (trade : ClosedTrade) : Flight D × Option Failure :=
  match f.legs trade.side with
  | none => (f, none)
  | some leg =>
    if leg.quoteAt < trade.closedAt then (f, none)
    else
      match before f trade leg with
      | some v => (setLeg f trade.side (some v.leg), none)
      | none =>
        match gap disk f with
        | (f, some failure) => (f, some failure)
        | (f, none) => (setLeg f trade.side none, none)

def closeAll (disk : Disk) (f : Flight D) : List ClosedTrade → Flight D × Option Failure
  | [] => (f, none)
  | trade :: trades =>
    match close disk f trade with
    | (f, some failure) => (f, some failure)
    | (f, none) => closeAll disk f trades

def update (disk : Disk) (f : Flight D) (setup : Setup D) : Flight D × Option Failure :=
  if f.final then (f, none)
  else if f.snapshot = some setup then (f, none)
  else
    match append disk f with
    | (f, some failure) => (f, some failure)
    | (f, none) => closeAll disk { f with snapshot := some setup, setup } setup.closedTrades

/-! ### Quotes -/

/-- The quote is known on both sides, each at most three seconds before it. -/
def fresh (times : Option Instant × Option Instant) (source : Instant) : Bool :=
  [times.1, times.2].all fun
    | none => false
    | some at' => 0 ≤ source - at' && source - at' ≤ seconds 3

/-- The closes of the side, or none at or before the instant. -/
def closedBy (setup : Setup D) (side : Side) (source : Instant) : Bool :=
  setup.closedTrades.any fun trade => trade.side = side && trade.closedAt ≤ source

/-- The volume of the last open position of the side that was updated by then, or of the fill. -/
def volumeAt (setup : Setup D) (side : Side) (filled : D) (source : Instant) : D :=
  setup.protection.foldl (fun volume current =>
    if current.side = side ∧ current.opened ∧ current.updatedAt.any (· ≤ source) then current.volume
    else volume) filled

/-- A difference in the direction of the side. -/
def directed (side : Side) (difference : D) : D :=
  match side with
  | .buy => difference
  | .sell => platform.neg difference

/-- Target and stop relative to the fill, or as they were last observed at the broker by then. -/
def protectionAt (setup : Setup D) (order : Order D) (entry : D) (source : Instant) : D × D :=
  let distance := fun price => platform.abs (platform.sub price order.entryPrice)
  let intent := (platform.add entry (directed platform order.side (distance order.takeProfit)),
    platform.sub entry (directed platform order.side (distance order.stopLoss)))
  setup.protection.foldl (fun levels p =>
    match p.brokerTp, p.brokerSl with
    | some tp, some sl =>
      if p.side = order.side ∧ p.verified ∧ p.observedAt.any (· ≤ source) then (tp, sl) else levels
    | _, _ => levels) intent

/-- What a quote contributes to the leg of an order. -/
def sampleOf (metadata : μ) (setup : Setup D) (order : Order D) (entry volume bid ask pip : D)
    (source : Instant) : Sample D :=
  let mark := match order.side with
    | .buy => bid
    | .sell => ask
  let levels := protectionAt platform setup order entry source
  { source
    move := platform.div (directed platform order.side (platform.sub mark entry)) pip
    toTarget := platform.div (platform.abs (platform.sub levels.1 mark)) pip
    toStop := platform.div (platform.abs (platform.sub levels.2 mark)) pip
    net := platform.estimateNetPips metadata entry mark volume order.side }

/-- The leg after one more quote. -/
def Leg.add (basis : D × D) (leg : Option (Leg D)) (s : Sample D) : Leg D :=
  match leg with
  | some leg =>
    { basis
      quoteAt := s.source
      excursion := leg.excursion.add platform s
      seen := leg.seen ++ [s] }
  | none =>
    { basis
      quoteAt := s.source
      excursion := Excursion.none'.add platform s
      seen := [s] }

/-- At most 8192 snapshots, and none from more than ten seconds before the latest quote in front. -/
def pushSnapshot (history : List (Snapshot D)) (v : Snapshot D) : List (Snapshot D) :=
  ((history ++ [v]).rtake 8192).dropWhile fun other => v.at' - other.at' > seconds 10

/-- The order contributes to its leg once it is filled, until a trade of its side is closed. A leg of
    another basis starts anew, after a gap. -/
def quoteOrder (disk : Disk) (metadata : μ) (f : Flight D) (bid ask pip : D) (source : Instant)
    (order : Order D) : Flight D × Option Failure :=
  match order.fill with
  | none => (f, none)
  | some fill =>
    if source < fill.lastFill ∨ closedBy f.setup order.side source then (f, none)
    else
      let volume := volumeAt f.setup order.side fill.volume source
      if !platform.lt platform.zero volume then (f, some .value)
      else
        let basis := (fill.price, volume)
        let s := sampleOf platform metadata f.setup order fill.price volume bid ask pip source
        let held := (f.legs order.side).filter fun leg => leg.basis = basis
        let start := if (f.legs order.side).isSome ∧ held.isNone then gap disk f else (f, none)
        match start with
        | (f, some failure) => (f, some failure)
        | (f, none) =>
          let leg := Leg.add platform basis held s
          let f := setLeg f order.side (some leg)
          match s.net with
          | .broken => (f, some .value)
          | _ =>
            ({ f with metricHistory := pushSnapshot f.metricHistory ⟨source, order.side, leg⟩ }, none)

def quoteOrders (disk : Disk) (metadata : μ) (f : Flight D) (bid ask pip : D) (source : Instant) :
    List (Order D) → Flight D × Option Failure
  | [] => (f, none)
  | order :: orders =>
    match quoteOrder platform disk metadata f bid ask pip source order with
    | (f, some failure) => (f, some failure)
    | (f, none) => quoteOrders disk metadata f bid ask pip source orders

/-- The times of the sides after a quote that updates one or both of them. -/
def sideTimesAfter (times : Option Instant × Option Instant) (event : BrokerQuote D)
    (source : Instant) : Option Instant × Option Instant :=
  (if event.bidUpdated then some source else times.1, if event.askUpdated then some source else times.2)

/-- The guarded part of `quote`. -/
def quoteBody (disk : Disk) (f : Flight D) (event : BrokerQuote D) (metadata : μ) (now : Instant) :
    Flight D × Option Failure :=
  if !event.isQuote then ({ f with sideTimes := (none, none) }, some .value)
  else
    match event.sourceTime, event.receivedAt, event.bid, event.ask, platform.pipSize metadata with
    | some source, some received, some bid, some ask, some pip =>
      let f := { f with sideTimes := sideTimesAfter f.sideTimes event source }
      if !fresh f.sideTimes source then (f, some .value)
      else if ¬ (0 ≤ now - source ∧ now - source ≤ seconds 3 ∧ source ≤ received ∧ received ≤ now ∧
          platform.lt platform.zero bid ∧ ¬ platform.lt ask bid ∧ platform.lt platform.zero pip) then
        (f, some .value)
      else
        let start := if f.lastQuote.any fun last => source < last || source - last > seconds 3 then
          gap disk f else (f, none)
        match start with
        | (f, some failure) => (f, some failure)
        | (f, none) =>
          quoteOrders platform disk metadata { f with lastQuote := some source } bid ask pip source
            f.setup.orders
    | _, _, _, _, _ => (f, some .value)

/-- What the quote throws is a gap, unless it came from the file system. -/
def quote (disk : Disk) (f : Flight D) (event : BrokerQuote D) (metadata : μ) (now : Instant) :
    Flight D × Option Failure :=
  if f.final then (f, none)
  else
    match append disk f with
    | (f, some failure) => (f, some failure)
    | (f, none) =>
      match quoteBody platform disk f event metadata now with
      | (f, none) => (f, none)
      | (f, some .value) => gap disk f
      | (f, some .os) => (f, some .os)

/-! ### Steps -/

inductive Call (D μ : Type) where
  | update (setup : Setup D)
  | quote (event : BrokerQuote D) (metadata : μ) (now : Instant)
  | gap
  | finish

def next (disk : Disk) (f : Flight D) : Call D μ → Flight D
  | .update setup => (update disk f setup).1
  | .quote event metadata now => (quote platform disk f event metadata now).1
  | .gap => (gap disk f).1
  | .finish =>
    if f.final then f
    else
      match append disk f with
      | (f, some _) => f
      | (f, none) => { f with final := true }

abbrev Step (D μ : Type) := Journal.Step (Flight D) (Call D μ)

end ScalpingBot.FlightMetrics
