import ScalpingBot.Contracts
import ScalpingBot.Library.Attempt
import ScalpingBot.Library.Checked

/-! The gateway of apps/execution-service/src/paper-gateway.ts. An order object is the leg of a
    group; the groups are listed in the order in which they were placed. -/

namespace ScalpingBot.Paper

inductive Leg where | first | second
  deriving DecidableEq

def Leg.peer : Leg → Leg
  | first => second
  | second => first

/-- The legs in the order in which a pair is walked. -/
def legs : List Leg := [.first, .second]

inductive PaperGroupState where | active | positionOpen | reconciliationRequired | closed
  deriving DecidableEq

/-- The states of a position: OPEN, CLOSED and UNKNOWN. -/
inductive PaperPositionState where | opened | closed | unknown
  deriving DecidableEq

structure MutablePaperOrder where
  command : PendingOrderCommand
  state : ExternalOrderState
  filledVolume : Decimal
  updatedAt : ℕ
  reasonCode : Option String
  deriving DecidableEq

structure PaperGroup where
  idempotencyKey : String
  orderGroupId : String
  orders : Leg → MutablePaperOrder
  state : PaperGroupState

/-- The order object of one leg is rewritten. -/
def PaperGroup.rewrite (group : PaperGroup) (l : Leg) (f : MutablePaperOrder → MutablePaperOrder) :
    PaperGroup :=
  { group with orders := Function.update group.orders l (f (group.orders l)) }

@[simp] theorem PaperGroup.rewrite_self (group : PaperGroup) (l : Leg)
    (f : MutablePaperOrder → MutablePaperOrder) :
    (group.rewrite l f).orders l = f (group.orders l) := Function.update_self ..

theorem PaperGroup.rewrite_of_ne (group : PaperGroup) {l m : Leg} (h : m ≠ l)
    (f : MutablePaperOrder → MutablePaperOrder) :
    (group.rewrite l f).orders m = group.orders m := Function.update_of_ne h ..

/-- A reference to an order object. -/
structure OrderRef where
  group : ℕ
  leg : Leg
  deriving DecidableEq

structure PaperPosition where
  order : OrderRef
  side : OrderSide
  entryPrice : Decimal
  volume : Decimal
  openedAt : ℕ
  state : PaperPositionState
  realizedPnl : Decimal
  exitPrice : Option Decimal
  reasonCode : Option String
  updatedAt : ℕ
  deriving DecidableEq

/-- The options as the constructor has parsed and checked them. -/
structure PaperGatewayOptions where
  tickSize : Decimal
  tickValue : Decimal
  slippagePoints : Decimal
  maxSlippagePoints : Decimal
  maxSlippageBps : Decimal
  tickSize_pos : 0 < tickSize
  tickValue_pos : 0 < tickValue
  slippagePoints_nonneg : 0 ≤ slippagePoints
  maxSlippagePoints_nonneg : 0 ≤ maxSlippagePoints
  maxSlippageBps_nonneg : 0 ≤ maxSlippageBps
  slippagePoints_le : slippagePoints ≤ maxSlippagePoints

/-- The constructor's check of the options, with their defaults. -/
def PaperGatewayOptions.construct (tickSize tickValue slippagePoints maxSlippagePoints
    maxSlippageBps : Option Decimal) : Except String PaperGatewayOptions := do
  let tickSize ← decimal (tickSize.getD (1 / 100))
  let tickValue ← decimal (tickValue.getD (1 / 100))
  let slippagePoints ← decimal (slippagePoints.getD 0)
  let maxSlippagePoints ← decimal (maxSlippagePoints.getD 5)
  let maxSlippageBps ← decimal (maxSlippageBps.getD 2)
  if h : 0 < tickSize ∧ 0 < tickValue ∧ 0 ≤ slippagePoints ∧ 0 ≤ maxSlippagePoints ∧
      0 ≤ maxSlippageBps ∧ slippagePoints ≤ maxSlippagePoints then
    .ok ⟨tickSize, tickValue, slippagePoints, maxSlippagePoints, maxSlippageBps,
      h.1, h.2.1, h.2.2.1, h.2.2.2.1, h.2.2.2.2.1, h.2.2.2.2.2⟩
  else .error "PAPER_SLIPPAGE_CONFIG_INVALID"

structure PaperGateway where
  groups : List PaperGroup
  /-- The map from client order ids, in insertion order. -/
  orders : List (String × OrderRef)
  positions : List PaperPosition

def PaperGateway.empty : PaperGateway := ⟨[], [], []⟩

structure PaperAccountMark where
  realizedPnl : Decimal
  unrealizedPnl : Decimal
  relevantPositionCount : ℕ
  relevantPendingOrderCount : ℕ
  hasPartialFill : Bool
  certain : Bool
  deriving DecidableEq

/-- What `processQuote` is called with. -/
structure Quote where
  symbol : String
  bid : Decimal
  ask : Decimal
  time : ℕ
  partialVolume : Option Decimal := none

/-- `external`. -/
def external (order : MutablePaperOrder) : GatewayOrder where
  clientOrderId := order.command.clientOrderId
  brokerOrderId := some ("paper:" ++ order.command.clientOrderId)
  state := order.state
  filledVolume := order.filledVolume
  updatedAt := some order.updatedAt
  reasonCode := order.reasonCode

/-! ### Placement and cancellation -/

/-- What `validatePair` checks of each command. -/
def validateCommand (now : ℕ) (command : PendingOrderCommand) : Except String Unit := do
  let volume ← decimal command.volume
  require (0 < volume) "PAPER_VOLUME_INVALID"
  validateSubmissionDeadline command now
  require (command.expiresAt.all (now < ·)) "PAPER_ORDER_EXPIRED"

/-- `validatePair`. -/
def validatePair (first second : PendingOrderCommand) (now : ℕ) : Except String Unit := do
  require (first.orderGroupId = second.orderGroupId ∧ first.analysisId = second.analysisId ∧
    first.symbol = second.symbol) "PAPER_OCO_PAIR_MISMATCH"
  require (first.side ≠ second.side) "PAPER_OCO_SIDES_INVALID"
  require (orderTimeInForce first = orderTimeInForce second) "PAPER_OCO_LIFETIME_MISMATCH"
  validateCommand now first
  validateCommand now second

/-- The key of a pair: its idempotency keys, sorted and joined. -/
def groupKey (first second : PendingOrderCommand) : String :=
  if first.idempotencyKey ≤ second.idempotencyKey then
    first.idempotencyKey ++ ":" ++ second.idempotencyKey
  else second.idempotencyKey ++ ":" ++ first.idempotencyKey

/-- The order object of a command that has just been placed. -/
def newOrder (now : ℕ) (command : PendingOrderCommand) : MutablePaperOrder where
  command := command
  state := .pending
  filledVolume := 0
  updatedAt := now
  reasonCode := none

/-- The group of a pair that has just been placed. -/
def newGroup (first second : PendingOrderCommand) (now : ℕ) : PaperGroup where
  idempotencyKey := groupKey first second
  orderGroupId := first.orderGroupId
  orders
    | .first => newOrder now first
    | .second => newOrder now second
  state := .active

/-- The entries that the pair placed as group `k` adds to the map: the second leg takes the entry of
    the first if it has its id. -/
def newEntries (first second : PendingOrderCommand) (k : ℕ) : List (String × OrderRef) :=
  if first.clientOrderId = second.clientOrderId then [(second.clientOrderId, ⟨k, .second⟩)]
  else [(first.clientOrderId, ⟨k, .first⟩), (second.clientOrderId, ⟨k, .second⟩)]

namespace PaperGateway

variable (g : PaperGateway)

/-- The order object behind a reference. -/
def order (ref : OrderRef) : Option MutablePaperOrder :=
  g.groups[ref.group]?.map fun group => group.orders ref.leg

/-- The orders of the map that are of this symbol. -/
def concerns (symbol : String) (ref : OrderRef) : Bool :=
  (g.order ref).any fun order => order.command.symbol = symbol

/-- `#orders.get`. -/
def lookup (clientOrderId : String) : Option OrderRef := g.orders.lookup clientOrderId

/-- `placeOco`. -/
def placeOco (first second : PendingOrderCommand) (now : ℕ) :
    PaperGateway × Except String OcoPlacementResult :=
  match validatePair first second now with
  | .error e => (g, .error e)
  | .ok () =>
    match g.groups.find? (·.idempotencyKey = groupKey first second) with
    | some existing =>
      (g, .ok ⟨existing.orderGroupId, true, legs.map fun l => external (existing.orders l)⟩)
    | none =>
      if [first, second].any fun command => (g.lookup command.clientOrderId).isSome then
        (g, .error "PAPER_CLIENT_ORDER_ID_CONFLICT")
      else
        let group := newGroup first second now
        ({ g with
            groups := g.groups ++ [group]
            orders := g.orders ++ newEntries first second g.groups.length },
          .ok ⟨group.orderGroupId, false, legs.map fun l => external (group.orders l)⟩)

/-- What a cancellation makes of an order. -/
def cancelled (reasonCode : String) (now : ℕ) (order : MutablePaperOrder) : MutablePaperOrder :=
  if order.state = .pending ∨ order.state = .partiallyFilled then
    { order with state := .cancelled, updatedAt := now, reasonCode := some reasonCode }
  else order

/-- `cancelStrategyOrder`. -/
def cancelStrategyOrder (clientOrderId reasonCode : String) (now : ℕ) :
    PaperGateway × Except String GatewayOrder :=
  match g.lookup clientOrderId with
  | none => (g, .error "PAPER_ORDER_NOT_FOUND")
  | some ref =>
    match g.groups[ref.group]? with
    | none => (g, .error "PAPER_ORDER_NOT_FOUND")
    | some group =>
      let group := group.rewrite ref.leg (cancelled reasonCode now)
      ({ g with groups := g.groups.set ref.group group }, .ok (external (group.orders ref.leg)))

end PaperGateway

/-! ### Quotes -/

variable (o : PaperGatewayOptions) (q : Quote)

/-- Where a position leaves the market at this quote, and why. -/
def exitAt (side : OrderSide) (command : PendingOrderCommand) :
    Except String (Option (Decimal × String)) := do
  let stop ← decimal command.stopLoss
  let target ← decimal command.takeProfit
  let stopHit : Bool := match side with
    | .buy => q.bid ≤ stop
    | .sell => stop ≤ q.ask
  let targetHit : Bool := match side with
    | .buy => target ≤ q.bid
    | .sell => q.ask ≤ target
  return if stopHit then some (stop, "PAPER_STOP_LOSS")
    else if targetHit then some (target, "PAPER_TAKE_PROFIT") else none

/-- The profit of a position that is left at a price. -/
def profit (side : OrderSide) (entryPrice exitPrice volume : Decimal) : Decimal :=
  let pricePnl := match side with
    | .buy => Decimal.minus exitPrice entryPrice
    | .sell => Decimal.minus entryPrice exitPrice
  Decimal.times (Decimal.times (Decimal.div pricePnl o.tickSize) o.tickValue) volume

/-- The position, left at this price. -/
def PaperPosition.close (position : PaperPosition) (exitPrice : Decimal) (reason : String) :
    PaperPosition :=
  { position with
    exitPrice := some exitPrice
    realizedPnl := profit o position.side position.entryPrice exitPrice position.volume
    state := .closed
    updatedAt := q.time
    reasonCode := some reason }

/-- Is there nothing left to happen to this leg of the group? -/
def legDone (positions : List PaperPosition) (k : ℕ) (group : PaperGroup) (l : Leg) : Bool :=
  (positions.filter (·.order = ⟨k, l⟩)).all (·.state = .closed) ∨
    (group.orders l).state ∈ [.cancelled, .expired, .rejected]

/-- The mark that the closing of a position leaves on its order. -/
def PaperGroup.marked (group : PaperGroup) (l : Leg) (reason : String) : PaperGroup :=
  group.rewrite l fun order => { order with updatedAt := q.time, reasonCode := some reason }

/-- One round of the loop over the open positions. -/
def closeRound (i : ℕ) : Attempt PaperGateway GatewayOrder := fun g =>
  match g.positions[i]? with
  | none => (g, .ok [])
  | some position =>
    let ref := position.order
    match g.groups[ref.group]? with
    | none => (g, .ok [])
    | some group =>
      match exitAt q position.side (group.orders ref.leg).command with
      | .error e => (g, .error e)
      | .ok none => (g, .ok [])
      | .ok (some (exitPrice, reason)) =>
        let group := group.marked q ref.leg reason
        let positions := g.positions.set i (position.close o q exitPrice reason)
        let state := if legs.all (legDone positions ref.group group) then .closed else group.state
        ({ g with
            groups := g.groups.set ref.group { group with state := state }
            positions := positions },
          .ok [external (group.orders ref.leg)])

/-- The open positions of the symbol, by their place in the list. -/
def openPositions (g : PaperGateway) (symbol : String) : List ℕ :=
  (List.range g.positions.length).filter fun i =>
    (g.positions[i]?).any fun position => position.state = .opened ∧ g.concerns symbol position.order

/-- What an expired lifetime makes of a pending order. -/
def expire (order : MutablePaperOrder) : MutablePaperOrder :=
  { order with
    state := .expired, updatedAt := q.time, reasonCode := some "PAPER_ORDER_EXPIRED" }

/-- Has the lifetime of a pending order ended? -/
def expires (order : MutablePaperOrder) : Bool :=
  order.state = .pending ∧ orderTimeInForce order.command = .gtd ∧
    order.command.expiresAt.any (· ≤ q.time)

/-- The pending orders of the group whose lifetime has ended are expired. -/
def expireGroup (group : PaperGroup) : PaperGroup :=
  { group with orders := fun l =>
      if expires q (group.orders l) then expire q (group.orders l) else group.orders l }

/-- Does the quote trigger the order? -/
def triggers (command : PendingOrderCommand) : Bool :=
  match pendingOrderType command, command.side with
  | .limit, .buy => q.ask ≤ command.entryPrice
  | .limit, .sell => command.entryPrice ≤ q.bid
  | _, .buy => command.entryPrice ≤ q.ask
  | _, .sell => q.bid ≤ command.entryPrice

/-- The price at which the quote fills the order. -/
def fillPrice (command : PendingOrderCommand) : Decimal :=
  let slippage := Decimal.times o.tickSize o.slippagePoints
  match pendingOrderType command, command.side with
  | .limit, .buy => min command.entryPrice q.ask
  | .limit, .sell => max command.entryPrice q.bid
  | _, .buy => Decimal.plus (max command.entryPrice q.ask) slippage
  | _, .sell => Decimal.minus (min command.entryPrice q.bid) slippage

/-- Is a fill of the order at this price beyond the slippage limits? A deviation from the price 0
    is infinitely many basis points. -/
def slippageExceeded (command : PendingOrderCommand) (price : Decimal) : Bool :=
  let distance := |Decimal.minus price command.entryPrice|
  let deviation := Decimal.div distance o.tickSize
  let deviationBps := Decimal.times (Decimal.div distance command.entryPrice) 10000
  o.maxSlippagePoints < deviation ∨
    if command.entryPrice = 0 then 0 < distance else o.maxSlippageBps < deviationBps

/-- What the quote makes of a triggered order, of which at most `partialVolume` is filled. -/
def fill (partialVolume : Option Decimal) (order : MutablePaperOrder) : MutablePaperOrder :=
  let requested := order.command.volume
  let filled := match partialVolume with
    | none => requested
    | some volume => min volume requested
  if slippageExceeded o order.command (fillPrice o q order.command) then
    { order with
      state := .rejected, updatedAt := q.time, reasonCode := some "PAPER_SLIPPAGE_EXCEEDED" }
  else
    { order with
      filledVolume := filled
      state := if filled < requested then .partiallyFilled else .filled
      updatedAt := q.time
      reasonCode :=
        some (if filled < requested then "PAPER_PARTIAL_FILL" else "PAPER_TRIGGER_FILLED") }

/-- Has the order been filled, wholly or in part? -/
def isFilled (order : MutablePaperOrder) : Bool :=
  order.state = .filled ∨ order.state = .partiallyFilled

/-- The position that a filled order opens. -/
def openPosition (ref : OrderRef) (order : MutablePaperOrder) : PaperPosition where
  order := ref
  side := order.command.side
  entryPrice := fillPrice o q order.command
  volume := order.filledVolume
  openedAt := q.time
  state := .opened
  realizedPnl := 0
  exitPrice := none
  reasonCode := none
  updatedAt := q.time

/-- The other leg is withdrawn. -/
def withdraw (reason : String) (order : MutablePaperOrder) : MutablePaperOrder :=
  { order with state := .cancelled, updatedAt := q.time, reasonCode := some reason }

/-- The pending leg of the group, the first if there are two, is withdrawn. -/
def withdrawLeg (reason : String) (orders : Leg → MutablePaperOrder) (candidates : List Leg) :
    (Leg → MutablePaperOrder) × List GatewayOrder :=
  match candidates.find? fun l => (orders l).state = .pending with
  | none => (orders, [])
  | some l =>
    (Function.update orders l (withdraw q reason (orders l)),
      [external (withdraw q reason (orders l))])

/-- The orders of a group once its triggered legs are filled or rejected. -/
def filledOrders (group : PaperGroup) (triggered : List Leg) (partialVolume : Option Decimal)
    (l : Leg) : MutablePaperOrder :=
  if l ∈ triggered then fill o q partialVolume (group.orders l) else group.orders l

/-- The positions of these orders are in doubt. -/
def doubted (refs : List OrderRef) (position : PaperPosition) : PaperPosition :=
  if position.order ∈ refs then { position with state := .unknown } else position

/-- What the fills of the triggered legs make of an active group. -/
def settleFills (k : ℕ) (group : PaperGroup) (triggered : List Leg) (partialVolume : Option Decimal) :
    Attempt PaperGateway GatewayOrder := fun g =>
  let orders := filledOrders o q group triggered partialVolume
  let filled := triggered.filter fun l => isFilled (orders l)
  let opened := g.positions ++ filled.map fun l => openPosition o q ⟨k, l⟩ (orders l)
  let reported := triggered.map fun l => external (orders l)
  match filled with
  | _ :: _ :: _ =>
    ({ g with
        groups := g.groups.set k { group with orders := orders, state := .reconciliationRequired }
        positions := opened.map (doubted (filled.map (OrderRef.mk k))) },
      .ok reported)
  | [] =>
    let (orders, withdrawn) := withdrawLeg q "PAPER_OCO_PEER_REJECTED" orders legs
    ({ g with
        groups := g.groups.set k { group with orders := orders, state := .closed }
        positions := opened },
      .ok (reported ++ withdrawn))
  | [active] =>
    let (orders, withdrawn) := withdrawLeg q "PAPER_OCO_PEER_FILLED" orders [active.peer]
    ({ g with
        groups := g.groups.set k { group with orders := orders, state := .positionOpen }
        positions := opened },
      .ok (reported ++ withdrawn))

/-- One round of the loop over the groups. The entry prices are parsed before an order is filled; the
    only other text that a fill parses and that may be invalid is the partial volume, at the first. -/
def groupRound (k : ℕ) : Attempt PaperGateway GatewayOrder := fun g =>
  match g.groups[k]? with
  | none => (g, .ok [])
  | some group =>
    if group.state ≠ .active ∨ (group.orders .first).command.symbol ≠ q.symbol then (g, .ok [])
    else
      let expired := (legs.filter fun l => expires q (group.orders l)).map fun l =>
        external (expire q (group.orders l))
      let group := expireGroup q group
      let g := { g with groups := g.groups.set k group }
      let pending := legs.filter fun l => (group.orders l).state = .pending
      if pending = [] then
        ({ g with groups := g.groups.set k { group with state := .closed } }, .ok expired)
      else
        match pending.forM fun l => discard (decimal (group.orders l).command.entryPrice) with
        | .error e => (g, .error e)
        | .ok () =>
          let triggered := pending.filter fun l => triggers q (group.orders l).command
          if triggered = [] then (g, .ok expired)
          else
            match q.partialVolume.forM fun volume => discard (decimal volume) with
            | .error e => (g, .error e)
            | .ok () =>
              let settled := settleFills o q k group triggered q.partialVolume g
              (settled.1, settled.2.map (expired ++ ·))

/-- What `processQuote` parses of the quote itself. -/
def checkQuote : Except String Unit := do
  let bid ← decimal q.bid
  let ask ← decimal q.ask
  require (bid < ask) "PAPER_QUOTE_CROSSED"

/-- `processQuote`. -/
def processQuote : Attempt PaperGateway GatewayOrder := fun g =>
  match checkQuote q with
  | .error e => (g, .error e)
  | .ok () =>
    ((Attempt.loop (closeRound o q) (openPositions g q.symbol)).andThen
      (Attempt.loop (groupRound o q) (List.range g.groups.length))) g

/-! ### Reports -/

namespace PaperGateway

variable (g : PaperGateway)

/-- The order objects that `accountMark` and `reconcile` look at. -/
def relevantOrders (symbol : String) : List (OrderRef × MutablePaperOrder) :=
  ((g.orders.map Prod.snd).filter (g.concerns symbol)).filterMap fun ref =>
    (g.order ref).map (ref, ·)

/-- The positions of the symbol. -/
def relevantPositions (symbol : String) : List PaperPosition :=
  g.positions.filter fun position => g.concerns symbol position.order

/-- What an open position would bring at this quote. -/
def unrealized (bid ask : Decimal) (position : PaperPosition) : Decimal :=
  let difference := match position.side with
    | .buy => Decimal.minus bid position.entryPrice
    | .sell => Decimal.minus position.entryPrice ask
  Decimal.times (Decimal.times (Decimal.div difference o.tickSize) o.tickValue) position.volume

/-- `accountMark`. -/
def accountMark (symbol : String) (bid ask : Decimal) : Except String PaperAccountMark := do
  let bid ← decimal bid
  let ask ← decimal ask
  let positions := g.relevantPositions symbol
  let orders := g.relevantOrders symbol
  return {
    realizedPnl := ((positions.filter (·.state = .closed)).map (·.realizedPnl)).foldl Decimal.plus 0
    unrealizedPnl :=
      ((positions.filter (·.state = .opened)).map (unrealized o bid ask)).foldl Decimal.plus 0
    relevantPositionCount := (positions.filter (·.state ≠ .closed)).length
    relevantPendingOrderCount :=
      (orders.filter (·.2.state ∈ [.pending, .partiallyFilled, .unknown])).length
    hasPartialFill := orders.any (·.2.state = .partiallyFilled)
    certain := !positions.any (·.state = .unknown) }

/-- `reconcile`. -/
def reconcile (symbol : String) : ReconciliationSnapshot where
  certain := !g.groups.any (·.state = .reconciliationRequired)
  orders := (g.relevantOrders symbol).map fun entry => external entry.2
  relevantPositionCount :=
    ((g.relevantPositions symbol).filter fun p => p.state = .opened ∨ p.state = .unknown).length

end PaperGateway

/-! ### Runs -/

/-- The calls of a gateway. -/
inductive Call where
  | place (first second : PendingOrderCommand) (now : ℕ)
  | cancel (clientOrderId reasonCode : String) (now : ℕ)
  | quote (q : Quote)
  | reconcile (symbol : String)

/-- What a call leaves, whether it throws or not. -/
def step (g : PaperGateway) : Call → Option PaperGateway
  | .place first second now => some (g.placeOco first second now).1
  | .cancel clientOrderId reasonCode now =>
    some (g.cancelStrategyOrder clientOrderId reasonCode now).1
  | .quote q => some (processQuote o q g).1
  | .reconcile _ => some g

end ScalpingBot.Paper
