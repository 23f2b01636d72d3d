import Mathlib.Data.List.Sort
import ScalpingBot.Contracts
import ScalpingBot.Library.Checked
import ScalpingBot.Library.Rounded

/-! The sampled-quote experiment `evaluate` of python/evaluation/engine.py. Its decimal context is a
    parameter, `round`. -/

namespace ScalpingBot.Evaluation

open Rounded

structure Quote where
  time : ℤ
  sourceTime : ℤ
  bid : ℚ
  ask : ℚ
  deriving DecidableEq

structure Scenario where
  latencyMs : ℤ := 500
  entrySlippage : ℚ := 2 / 100
  exitSlippage : ℚ := 5 / 100
  spreadMultiplier : ℚ := 1
  commissionPerMillion : ℚ := 30
  fillFraction : ℚ := 1
  modelCostPerRequest : ℚ := 0
  ocoCancelLatencyMs : ℤ := 500

/-- A leg of a plan: side, stop entry, relative target and relative stop. -/
structure Leg where
  side : OrderSide
  entry : ℚ
  tp : ℚ
  stop : ℚ
  deriving DecidableEq

structure Plan where
  created : ℤ
  available : ℤ
  expires : ℤ
  legs : List Leg

/-- A pending leg, with its plan and its place in it. The code keeps the leg only; nothing reads the
    other two. -/
structure Order where
  plan : ℕ
  place : ℕ
  leg : Leg
  deriving DecidableEq

/-- A position, with the plan it comes from, which the code does not keep. -/
structure Position where
  plan : ℕ
  side : OrderSide
  entry : ℚ
  target : ℚ
  stop : ℚ
  opened : ℤ
  volume : ℚ
  openingFee : ℚ
  deriving DecidableEq

/-- The ways in which a leg stops being pending. -/
inductive Fate where | filled | expired | ocoCancelled | gapCancelled
  deriving DecidableEq

structure Counters where
  censoredPositions : ℕ := 0
  gapCancelledOrders : ℕ := 0
  expiredOrders : ℕ := 0
  ocoCancelledOrders : ℕ := 0
  fills : ℕ := 0
  partialFills : ℕ := 0
  stopLimitUnfilledObservations : ℕ := 0
  decisions : ℕ := 0
  existingExposureRejections : ℕ := 0
  stalePlanRejections : ℕ := 0
  entryValidationRejections : ℕ := 0
  submittedOrders : ℕ := 0
  deriving DecidableEq

/-- The counter of a fate. -/
def Counters.of (c : Counters) : Fate → ℕ
  | .filled => c.fills
  | .expired => c.expiredOrders
  | .ocoCancelled => c.ocoCancelledOrders
  | .gapCancelled => c.gapCancelledOrders

def Counters.count (c : Counters) (fate : Fate) (n : ℕ) : Counters :=
  match fate with
  | .filled => { c with fills := c.fills + n }
  | .expired => { c with expiredOrders := c.expiredOrders + n }
  | .ocoCancelled => { c with ocoCancelledOrders := c.ocoCancelledOrders + n }
  | .gapCancelled => { c with gapCancelledOrders := c.gapCancelledOrders + n }

/-- `cancel_at`, with the plan whose fill set it, which the code does not keep. -/
structure CancelTimer where
  time : ℤ
  plan : ℕ
  deriving DecidableEq

/-- The variables of the loop over the quotes. `submitted` and `fates` are the history of the orders,
    which the code does not keep. -/
structure State where
  pending : List Order := []
  expiry : ℤ := 0
  cancelAt : Option CancelTimer := none
  positions : List Position := []
  index : ℕ := 0
  counters : Counters := {}
  outcomes : List ℚ := []
  latencies : List ℤ := []
  net : ℚ := 0
  high : ℚ := 0
  drawdown : ℚ := 0
  fees : ℚ := 0
  exposureMs : ℚ := 0
  observedMs : ℤ := 0
  prior : Option Quote := none
  modelCost : ℚ := 0
  submitted : List Order := []
  fates : List (Order × Fate) := []

def sign : OrderSide → ℚ
  | .buy => 1
  | .sell => -1

section

variable (round : ℚ → ℚ) (scenario : Scenario)

/-- `SCENARIO_INVALID`; that the decimals are finite is part of their type here. -/
def Scenario.valid (scenario : Scenario) : Bool :=
  (0 < scenario.fillFraction ∧ scenario.fillFraction ≤ 1) ∧ 0 ≤ scenario.latencyMs ∧
    0 ≤ scenario.ocoCancelLatencyMs ∧ 0 ≤ scenario.entrySlippage ∧ 0 ≤ scenario.exitSlippage ∧
    0 ≤ scenario.commissionPerMillion ∧ 0 ≤ scenario.modelCostPerRequest ∧
    1 ≤ scenario.spreadMultiplier

/-- The bid and the ask of the scenario at a quote. -/
def priced (quote : Quote) : Quote :=
  let half := div round (mul round (sub round quote.ask quote.bid) scenario.spreadMultiplier) 2
  let mid := div round (add round quote.bid quote.ask) 2
  { quote with bid := sub round mid half, ask := add round mid half }

/-- The pending orders end in a fate. -/
def discard (fate : Fate) (s : State) : State :=
  { s with
    pending := []
    counters := s.counters.count fate s.pending.length
    fates := s.fates ++ s.pending.map fun order => (order, fate) }

/-- The positions end unseen. -/
def censor (s : State) : State :=
  { s with
    positions := []
    counters :=
      { s.counters with
        censoredPositions := s.counters.censoredPositions + s.positions.length } }

/-- Whether the path before a quote is unknown. -/
def gapBefore (s : State) (quote : Quote) : Bool :=
  s.prior.any fun prior => quote.time - prior.time > 3000

/-- The time since the quote before. -/
def observe (s : State) (quote : Quote) : State :=
  let s :=
    if gapBefore s quote then discard .gapCancelled (censor s)
    else match s.prior with
      | none => s
      | some prior =>
        let interval := quote.time - prior.time
        { s with
          observedMs := s.observedMs + interval
          exposureMs := add round s.exposureMs
            (mul round (sum round (s.positions.map Position.volume)) interval) }
  { s with prior := some quote }

/-- The price at which a position would be closed. -/
def mark (quote : Quote) (position : Position) : ℚ :=
  match position.side with
  | .buy => quote.bid
  | .sell => quote.ask

/-- Whether a position is closed at a quote. -/
def closes (quote : Quote) (position : Position) : Bool :=
  let mark := mark quote position
  let hit : Bool := match position.side with
    | .buy => mark ≥ position.target ∨ mark ≤ position.stop
    | .sell => mark ≤ position.target ∨ mark ≥ position.stop
  hit ∨ quote.time - position.opened ≥ 120000

/-- One pass of the loop over the positions. -/
def closePosition (quote : Quote) (s : State) (position : Position) : State :=
  if closes quote position then
    let exitPrice := sub round (mark quote position)
      (mul round (sign position.side) scenario.exitSlippage)
    let closingFee := div round
      (mul round (mul round exitPrice position.volume) scenario.commissionPerMillion) 1000000
    let gross := mul round (mul round (sub round exitPrice position.entry) (sign position.side))
      position.volume
    let pnl := sub round (sub round gross position.openingFee) closingFee
    { s with
      outcomes := s.outcomes ++ [pnl]
      fees := add round s.fees (add round position.openingFee closingFee)
      net := add round s.net pnl
      positions := s.positions.erase position }
  else s

def closePositions (quote : Quote) (s : State) : State :=
  s.positions.foldl (closePosition round scenario quote) s

def expire (quote : Quote) (s : State) : State :=
  if s.pending ≠ [] ∧ quote.time ≥ s.expiry then discard .expired s else s

def cancel (quote : Quote) (s : State) : State :=
  match s.cancelAt with
  | some timer =>
    if quote.time ≥ timer.time then { discard .ocoCancelled s with cancelAt := none } else s
  | none => s

/-- The price at which an order would be executed. -/
def executable (quote : Quote) (leg : Leg) : ℚ :=
  match leg.side with
  | .buy => quote.ask
  | .sell => quote.bid

def isTriggered (quote : Quote) (leg : Leg) : Bool :=
  match leg.side with
  | .buy => executable quote leg ≥ leg.entry
  | .sell => executable quote leg ≤ leg.entry

def fillPrice (quote : Quote) (leg : Leg) : ℚ :=
  add round (executable quote leg) (mul round (sign leg.side) scenario.entrySlippage)

def insideLimit (quote : Quote) (leg : Leg) : Bool :=
  mul round (sub round (fillPrice round scenario quote leg) leg.entry) (sign leg.side) ≤ 5 / 100

/-- The position that an order becomes. -/
def opened (quote : Quote) (order : Order) : Position :=
  let leg := order.leg
  let fill := fillPrice round scenario quote leg
  { plan := order.plan
    side := leg.side
    entry := fill
    target := add round fill (mul round (sign leg.side) leg.tp)
    stop := sub round fill (mul round (sign leg.side) leg.stop)
    opened := quote.time
    volume := scenario.fillFraction
    openingFee := div round
      (mul round (mul round fill scenario.fillFraction) scenario.commissionPerMillion) 1000000 }

/-- One pass of the loop over the pending orders; `filled` is set by an order's fill, here to its plan. -/
def fillOrder (quote : Quote) (acc : State × Option ℕ) (order : Order) : State × Option ℕ :=
  let (s, filled) := acc
  if isTriggered quote order.leg then
    if insideLimit round scenario quote order.leg then
      let counters := s.counters.count .filled 1
      ({ s with
          positions := s.positions ++ [opened round scenario quote order]
          pending := s.pending.erase order
          counters :=
            { counters with
              partialFills := counters.partialFills + if scenario.fillFraction < 1 then 1 else 0 }
          fates := s.fates ++ [(order, .filled)] }, some order.plan)
    else
      ({ s with
          counters :=
            { s.counters with
              stopLimitUnfilledObservations := s.counters.stopLimitUnfilledObservations + 1 } },
        filled)
  else (s, filled)

def fillOrders (quote : Quote) (s : State) : State :=
  let (s, filled) := s.pending.foldl (fillOrder round scenario quote) (s, none)
  match filled with
  | some plan => { s with cancelAt := some ⟨quote.time + scenario.ocoCancelLatencyMs, plan⟩ }
  | none => s

/-- The orders of the plan at a position of the plans. -/
def orders (plan : ℕ) (legs : List Leg) : List Order :=
  legs.mapIdx fun place leg => ⟨plan, place, leg⟩

/-- The time from which a plan is considered. -/
def Plan.due (plan : Plan) : ℤ := max plan.available (plan.created + scenario.latencyMs)

/-- A plan is taken up. -/
def decided (s : State) : State :=
  { s with
    index := s.index + 1
    counters := { s.counters with decisions := s.counters.decisions + 1 }
    modelCost := add round s.modelCost scenario.modelCostPerRequest }

/-- The legs of a plan become the pending orders. -/
def submit (quote : Quote) (number : ℕ) (plan : Plan) (s : State) : State :=
  { s with
    pending := orders number plan.legs
    expiry := plan.expires
    counters :=
      { s.counters with submittedOrders := s.counters.submittedOrders + plan.legs.length }
    latencies := s.latencies ++ [quote.time - plan.created]
    submitted := s.submitted ++ orders number plan.legs }

/-- Whether the quote has moved through an entry of a plan. -/
def entryPassed (quote : Quote) (plan : Plan) : Bool :=
  plan.legs.any fun leg => match leg.side with
    | .buy => leg.entry ≤ quote.ask
    | .sell => leg.entry ≥ quote.bid

/-- One pass of the loop over the plans that are due. -/
def considerPlan (quote : Quote) (s : State) (plan : Plan) : State :=
  let number := s.index
  let s := decided round scenario s
  if s.pending ≠ [] ∨ s.positions ≠ [] then
    { s with
      counters :=
        { s.counters with
          existingExposureRejections := s.counters.existingExposureRejections + 1 } }
  else if quote.time ≥ plan.expires ∨ quote.time - plan.due scenario > 3000 then
    { s with
      counters := { s.counters with stalePlanRejections := s.counters.stalePlanRejections + 1 } }
  else if entryPassed quote plan then
    { s with
      counters :=
        { s.counters with
          entryValidationRejections := s.counters.entryValidationRejections + 1 } }
  else submit quote number plan s

/-- The loop over the plans that are due, from the next one on. -/
def considerPlans (quote : Quote) : List Plan → State → State
  | [], s => s
  | plan :: rest, s =>
    if plan.due scenario ≤ quote.time then
      considerPlans quote rest (considerPlan round scenario quote s plan)
    else s

/-- The marks of the equity at the end of a pass. -/
def markEquity (quote : Quote) (s : State) : State :=
  let unrealized := sum round (s.positions.map fun p =>
    sub round (mul round (mul round (sub round (mark quote p) p.entry) (sign p.side)) p.volume)
      p.openingFee)
  let equity := sub round (add round s.net unrealized) s.modelCost
  let high := max s.high equity
  { s with high, drawdown := max s.drawdown (sub round high equity) }

/-- One pass of the loop over the quotes. -/
def step (plans : List Plan) (s : State) (quote : Quote) : State :=
  let priced := priced round scenario quote
  let s := observe round s quote
  let s := closePositions round scenario priced s
  let s := expire quote s
  let s := cancel quote s
  let s := fillOrders round scenario priced s
  let s := considerPlans round scenario priced (plans.drop s.index) s
  markEquity round priced s

/-- The loop over the quotes. -/
def run (plans : List Plan) (quotes : List Quote) : State :=
  quotes.foldl (step round scenario plans) {}

structure Report where
  closedTrades : ℕ
  netPnlBeforeModel : ℚ
  modelCostAssumption : ℚ
  netPnl : Option ℚ
  fees : ℚ
  netExpectancyBeforeModel : Option ℚ
  maxMarkedDrawdown : ℚ
  profitFactor : Option ℚ
  tradesPerObservedHour : Option ℚ
  unitExposureFraction : Option ℚ
  fillRate : Option ℚ
  latencyP50Ms : Option ℤ
  latencyP95Ms : Option ℤ
  iidExpectancyInterval95 : Option (ℚ × ℚ)
  counters : Counters
  closedPnls : List ℚ
  deriving DecidableEq

/-- A quotient that is reported where its denominator is not zero. -/
def ratio (a b : ℚ) : Option ℚ := if b = 0 then none else some (div round a b)

/-- What is reported after the last quote; `bootstrap` is the interval of the seeded resampling. -/
def reportOf (bootstrap : List ℚ → ℚ × ℚ) (last : State) : Report :=
  let s := censor last
  let wins := sum round (s.outcomes.filter (0 < ·))
  let losses := round (-sum round (s.outcomes.filter (· < 0)))
  let count : ℚ := s.outcomes.length
  let latencies := s.latencies.mergeSort (· ≤ ·)
  { closedTrades := s.outcomes.length
    netPnlBeforeModel := s.net
    modelCostAssumption := s.modelCost
    netPnl := if s.counters.censoredPositions = 0 then some (sub round s.net s.modelCost) else none
    fees := s.fees
    netExpectancyBeforeModel :=
      if s.outcomes = [] then none else some (div round (sum round s.outcomes) count)
    maxMarkedDrawdown := s.drawdown
    profitFactor := ratio round wins losses
    tradesPerObservedHour := ratio round count (div round s.observedMs 3600000)
    unitExposureFraction := ratio round s.exposureMs s.observedMs
    fillRate := ratio round s.counters.fills s.counters.submittedOrders
    latencyP50Ms := latencies[latencies.length / 2]?
    latencyP95Ms := latencies[min (latencies.length - 1) (latencies.length * 95 / 100)]?
    iidExpectancyInterval95 := if s.outcomes = [] then none else some (bootstrap s.outcomes)
    counters := s.counters
    closedPnls := s.outcomes }

/-- `evaluate`. -/
def evaluate (bootstrap : List ℚ → ℚ × ℚ) (quotes : List Quote) (plans : List Plan) :
    Except String Report := do
  require scenario.valid "SCENARIO_INVALID"
  require (¬ (plans.zip plans.tail).any fun (a, b) => b.created < a.created) "PLANS_NOT_ORDERED"
  require (¬ plans.any fun p => p.available < p.created ∨ p.expires ≤ p.available)
    "PLAN_VALIDITY_INVALID"
  return reportOf round bootstrap (run round scenario plans quotes)

end

end ScalpingBot.Evaluation
