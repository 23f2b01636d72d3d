import Mathlib.Logic.Function.Basic
import ScalpingBot.Gateway.Report

/-! The state of `CTraderDemoGateway` (apps/execution-service/src/demo-gateway.ts) and the parts of
    it that run without an `await`. A tracked order is a mutable object shared by the two maps: here
    it is a reference into `tracked`, and the maps hold references. `causes`, `sent` and `finished`
    are not fields of the class: they record what was latched, sent to the broker and returned. -/

namespace ScalpingBot.Gateway

/-- The texts that `#uncertainReason` may hold. -/
inductive UncertainReason where
  | fillPriceMissing
  | fillSlippageExceeded
  | partialIdempotencyRecovery
  | secondLegFailedCancellationUncertain
  | ocoCancellationReconciliationRequired
  deriving DecidableEq

def UncertainReason.text : UncertainReason → String
  | fillPriceMissing => "DEMO_FILL_PRICE_MISSING"
  | fillSlippageExceeded => "DEMO_FILL_SLIPPAGE_EXCEEDED"
  | partialIdempotencyRecovery => "DEMO_PARTIAL_IDEMPOTENCY_RECOVERY"
  | secondLegFailedCancellationUncertain => "DEMO_SECOND_LEG_FAILED_CANCELLATION_UNCERTAIN"
  | ocoCancellationReconciliationRequired => "DEMO_OCO_CANCELLATION_RECONCILIATION_REQUIRED"

/-- `CTraderDemoGatewayOptions`; the two flags say whether the optional callback is given. -/
structure CTraderDemoGatewayOptions where
  symbolId : String
  symbolName : String
  placementEnabled : Bool := false
  acknowledgement : String := ""
  strategyLabelPrefix : String := "ctrader-ai-scalper"
  blockManualOrders : Bool := true
  blockManualPositions : Bool := true
  tickSize : Decimal
  maxSlippagePoints : Decimal
  maxSlippageBps : Decimal
  marketSession : Bool := false
  placementReadiness : Bool := false

structure TrackedOrder where
  command : PendingOrderCommand
  brokerOrderId : Option String
  state : ExternalOrderState
  filledVolume : Decimal
  updatedAt : ℕ
  reasonCode : Option String
  deriving DecidableEq

structure TrackedGroup where
  key : String
  orderGroupId : String
  orders : List ℕ
  deriving DecidableEq

/-- What was handed to the broker client: a tracked order to place, or a cancellation of the order
    with this client order id. -/
inductive Sent where
  | place (order : ℕ)
  | cancel (clientOrderId : String)
  deriving DecidableEq

/-- Where a running `placeDirectional` or `placeOco` is suspended. -/
inductive Stage where
  | preflight          -- the first `reconcileRaw`
  | session            -- `#rejectClosedSession` on all orders
  | recheck            -- `reconcileRaw` before dispatch
  | readiness          -- `placementReadiness`
  | sessionAgain       -- `#rejectClosedSession` before dispatch
  | placeFirst
  | reconcileFirst
  | sessionSecond      -- `#rejectClosedSession` on the second order
  | cancelFirst
  | reconcileClosed
  | placeSecond
  | reconcilePlaced
  | cancelAfterFailure
  | reconcileFailed
  deriving DecidableEq

/-- A running placement: one command for `placeDirectional`, two for `placeOco`. `orders` are the
    local `tracked`, empty until they are created. -/
structure Placement where
  commands : List PendingOrderCommand
  key : String
  orders : List ℕ := []
  stage : Stage := .preflight

/-- An awaited cancellation outside of `placeOco`. -/
inductive Cancellation where
  | peer (order : ℕ)                             -- `#cancelPendingPeer`
  | peerReconcile (order : ℕ)                    -- its `reconcileRaw`
  | strategyOrder (order : ℕ) (reasonCode : String)  -- `cancelStrategyOrder`
  deriving DecidableEq

structure CTraderDemoGateway where
  tracked : ℕ → TrackedOrder
  created : ℕ
  groups : List TrackedGroup
  orders : String → Option ℕ
  cancelInFlight : List String
  uncertainReason : Option UncertainReason
  slippageOrderGroupId : Option String
  placing : Option Placement
  cancellations : List Cancellation
  causes : List (UncertainReason × String)
  sent : List Sent
  finished : List (Except String OcoPlacementResult)

namespace CTraderDemoGateway

/-- No object is tracked: the entries of `tracked` below `created` are the objects. -/
def initial : CTraderDemoGateway where
  tracked := fun _ => ⟨⟨none, "", "", "", "", "", .buy, 0, 0, 0, 0, none, none, "", none⟩,
    none, .unknown, 0, 0, none⟩
  created := 0
  groups := []
  orders := fun _ => none
  cancelInFlight := []
  uncertainReason := none
  slippageOrderGroupId := none
  placing := none
  cancellations := []
  causes := []
  sent := []
  finished := []

variable (o : CTraderDemoGatewayOptions) (g : CTraderDemoGateway)

/-- `external`. -/
def external (ref : ℕ) : GatewayOrder :=
  let order := g.tracked ref
  ⟨order.command.clientOrderId, order.brokerOrderId, order.state, order.filledVolume,
    some order.updatedAt, order.reasonCode⟩

def setTracked (ref : ℕ) (order : TrackedOrder) : CTraderDemoGateway :=
  { g with tracked := Function.update g.tracked ref order }

/-- `this.#uncertainReason = …`, for a cause that belongs to an order group. -/
def latch (reason : UncertainReason) (orderGroupId : String) : CTraderDemoGateway :=
  { g with uncertainReason := some reason, causes := (reason, orderGroupId) :: g.causes }

/-- The latch of a fill, which for slippage remembers its group too. -/
def latchFill (reason : UncertainReason) (orderGroupId : String) : CTraderDemoGateway :=
  if reason = .fillSlippageExceeded then
    { g.latch reason orderGroupId with slippageOrderGroupId := some orderGroupId }
  else g.latch reason orderGroupId

/-- What a report writes to its tracked order. -/
structure Report where
  brokerOrderId : String
  state : ExternalOrderState
  filledVolume : Decimal

/-- The state that a report gives its order: type 11 is a partial fill whatever the order says. -/
def nextState (e : BrokerExecution) (order : BrokerOrder) : Except String ExternalOrderState :=
  if e.executionType = 11 then .ok .partiallyFilled else stateFromOrder order

/-- The reading part of `#applyExecution`: the order it concerns and what is to be written, or
    nothing when the message is not for a tracked order, or is older than what is known. -/
def readReport (e : BrokerExecution) (order : BrokerOrder) : Except String (Option (ℕ × Report)) := do
  if ← isBrokerGeneratedClosingOrder order then return none
  match ← order.clientOrderId.optional "clientOrderId" with
  | none => return none
  | some clientOrderId =>
    match g.orders clientOrderId with
    | none => return none
    | some ref =>
      let nextVolume := (← order.executedVolume.optional "executedVolume").getD 0
      let nextState ← nextState e order
      if nextVolume < (g.tracked ref).filledVolume ∨
          (nextState = .pending ∧ (g.tracked ref).state.terminal) then return none
      return some (ref, ⟨← order.orderId.required "orderId", nextState, nextVolume⟩)

/-- Is a fill of the order at this price beyond its slippage limits? A deviation from the price 0 is
    infinitely many basis points. -/
def slippageExceeded (command : PendingOrderCommand) (price : Decimal) : Bool :=
  let deviation := max 0 (match command.side with
    | .buy => Decimal.minus price command.entryPrice
    | .sell => Decimal.minus command.entryPrice price)
  let points := Decimal.div deviation o.tickSize
  let basisPoints := Decimal.times (Decimal.div deviation command.entryPrice) 10000
  let maxPoints : Decimal := match command.entryRangePoints with
    | some points => points
    | none => o.maxSlippagePoints
  maxPoints < points ∨
    if command.entryPrice = 0 then 0 < deviation else o.maxSlippageBps < basisPoints

/-- Why a fill at this price makes the gateway uncertain, if it does. -/
def fillReason (command : PendingOrderCommand) : Option Decimal → Option UncertainReason
  | none => some .fillPriceMissing
  | some price =>
    if price ≤ 0 then some .fillPriceMissing
    else if slippageExceeded o command price then some .fillSlippageExceeded
    else none

/-- The latch that a fill sets. -/
def checkFillPrice (ref : ℕ) (price : Option Decimal) : CTraderDemoGateway :=
  let order := g.tracked ref
  match fillReason o order.command price with
  | none => g
  | some reason =>
    (g.latchFill reason order.command.orderGroupId).setTracked ref
      { order with reasonCode := some reason.text }

/-- The writing part of `#applyExecution`; the second component is what it throws. -/
def write (e : BrokerExecution) (order : BrokerOrder) (ref : ℕ) (report : Report)
    (reasonCode : Option String) : CTraderDemoGateway × Option String :=
  let g := g.setTracked ref { g.tracked ref with
    brokerOrderId := some report.brokerOrderId
    state := report.state
    filledVolume := report.filledVolume
    updatedAt := e.receivedAt
    reasonCode := reasonCode <|> e.errorCode }
  if e.executionType = 3 ∨ e.executionType = 11 then
    match executionPrice e order with
    | .error error => (g, some error)
    | .ok price => (g.checkFillPrice o ref price, none)
  else (g, none)

/-- `#applyExecution`; the second component is what it throws. -/
def applyExecution (e : BrokerExecution) (reasonCode : Option String) :
    CTraderDemoGateway × Option String :=
  match e.order with
  | none => (g, none)
  | some order =>
    match g.readReport e order with
    | .error error => (g, some error)
    | .ok none => (g, none)
    | .ok (some (ref, report)) => g.write o e order ref report reasonCode

/-- `#cancelPendingPeer` up to its first `await`. -/
def cancelPendingPeer (group : TrackedGroup) : CTraderDemoGateway :=
  match group.orders.find? (fun ref => 0 < (g.tracked ref).filledVolume) with
  | none => g
  | some filled =>
    match group.orders.find? (fun ref => ref ≠ filled) with
    | none => g
    | some peer =>
      let order := g.tracked peer
      if order.brokerOrderId = none ∨ order.state ≠ .pending then g
      else if order.command.clientOrderId ∈ g.cancelInFlight then g
      else { g with
        cancelInFlight := order.command.clientOrderId :: g.cancelInFlight
        sent := .cancel order.command.clientOrderId :: g.sent
        cancellations := .peer peer :: g.cancellations }

/-- `#handleExecution`: the callback for an execution event. What it throws is lost. -/
def handleExecution (e : BrokerExecution) : CTraderDemoGateway :=
  match e.order with
  | none => g
  | some order =>
    match isBrokerGeneratedClosingOrder order with
    | .error _ => g
    | .ok true => g
    | .ok false =>
      match g.applyExecution o e none with
      | (g, some _) => g
      | (g, none) =>
        match order.clientOrderId with
        | .value clientOrderId =>
          match g.orders clientOrderId with
          | none => g
          | some filled =>
            match g.groups.find? (fun group => filled ∈ group.orders) with
            | none => g
            | some group => g.cancelPendingPeer group
        | _ => g

/-- The group that an order belongs to, as its command says. -/
def groupIdOf (ref : ℕ) : String := (g.tracked ref).command.orderGroupId

/-- The continuations of an awaited cancellation: `none` is a rejected promise. -/
def cancellationDone (c : Cancellation) (response : Option BrokerExecution) : CTraderDemoGateway :=
  let g := { g with cancellations := g.cancellations.erase c }
  let uncertain (g : CTraderDemoGateway) (ref : ℕ) : CTraderDemoGateway :=
    { g.latch .ocoCancellationReconciliationRequired (g.groupIdOf ref) with
      cancelInFlight := g.cancelInFlight.erase (g.tracked ref).command.clientOrderId }
  match c, response with
  | .peer ref, none => uncertain g ref
  | .peer ref, some e =>
    match g.applyExecution o e (some "DEMO_OCO_PEER_FILLED") with
    | (g, some _) => uncertain g ref
    | (g, none) => { g with cancellations := .peerReconcile ref :: g.cancellations }
  | .peerReconcile ref, none => uncertain g ref
  | .peerReconcile ref, some _ =>
    { g with cancelInFlight := g.cancelInFlight.erase (g.tracked ref).command.clientOrderId }
  | .strategyOrder _ _, none => g
  | .strategyOrder _ reasonCode, some e => (g.applyExecution o e (some reasonCode)).1

/-- `cancelStrategyOrder` of a tracked order up to its first `await`; an order that is not tracked
    goes to `#cancelRecoveredOrder`, which leaves the gateway's state alone. -/
def cancelStrategyOrder (clientOrderId reasonCode : String) : CTraderDemoGateway :=
  match g.orders clientOrderId with
  | none => g
  | some ref =>
    let order := g.tracked ref
    if ¬ o.strategyLabelPrefix.toList.isPrefixOf order.command.strategyLabel.toList then g
    else if order.brokerOrderId = none then g
    else if order.state ≠ .pending ∧ order.state ≠ .partiallyFilled then g
    else { g with
      sent := .cancel order.command.clientOrderId :: g.sent
      cancellations := .strategyOrder ref reasonCode :: g.cancellations }

end CTraderDemoGateway

/-- The argument of `acknowledgeCertainTerminalRecovery`. -/
structure TerminalRecovery where
  orderGroupId : String
  terminalProofKey : String
  certain : Bool
  orders : List GatewayOrder

/-- `/^terminal:[0-9a-f]{64}$/`. -/
def isTerminalProofKey (key : String) : Bool :=
  let chars := key.toList
  chars.take 9 = "terminal:".toList ∧ chars.length = 73 ∧
    (chars.drop 9).all fun c => ('0' ≤ c ∧ c ≤ '9') ∨ ('a' ≤ c ∧ c ≤ 'f')

/-- The proof that a recovery must hold for a tracked order. -/
def provesTerminal (order : TrackedOrder) (proof : GatewayOrder) : Bool :=
  proof.clientOrderId = order.command.clientOrderId ∧
    proof.brokerOrderId = order.brokerOrderId ∧ proof.state.terminal ∧ 0 ≤ proof.filledVolume ∧
    proof.filledVolume = (if proof.state = .filled then order.command.volume else 0) ∧
    proof.updatedAt.isSome

namespace CTraderDemoGateway

variable (g : CTraderDemoGateway)

/-- The group whose recovery is acknowledged, if the evidence covers every order of it. -/
def recoveredGroup (input : TerminalRecovery) : Option TrackedGroup :=
  if ¬ input.certain then none
  else
    match g.groups.find? (fun group => group.orderGroupId = input.orderGroupId) with
    | none => none
    | some group =>
      if input.orders.length = group.orders.length ∧
          (input.orders.map (·.clientOrderId)).dedup.length = group.orders.length ∧
          group.orders.all (fun ref => input.orders.any (provesTerminal (g.tracked ref))) then
        some group
      else none

/-- Retire one order of a recovered group. -/
def retire (input : TerminalRecovery) (ref : ℕ) : CTraderDemoGateway :=
  let order := g.tracked ref
  match input.orders.find? (fun proof => proof.clientOrderId = order.command.clientOrderId) with
  | none => g
  | some proof =>
    { g.setTracked ref { order with
        state := proof.state
        filledVolume := proof.filledVolume
        updatedAt := proof.updatedAt.getD order.updatedAt
        reasonCode := none } with
      orders := Function.update g.orders order.command.clientOrderId none }

/-- `acknowledgeCertainTerminalRecovery`; `none` when it throws. -/
def acknowledgeCertainTerminalRecovery (input : TerminalRecovery) : Option CTraderDemoGateway :=
  if input.orderGroupId = "" ∨ ¬ isTerminalProofKey input.terminalProofKey then none
  else
    match g.recoveredGroup input with
    | none => some g
    | some group =>
      let g := group.orders.foldl (fun g ref => g.retire input ref) g
      let g := { g with causes := g.causes.filter fun cause => cause.2 ≠ input.orderGroupId }
      if g.uncertainReason = some .fillSlippageExceeded ∧
          g.slippageOrderGroupId = some input.orderGroupId then
        some { g with uncertainReason := none, slippageOrderGroupId := none }
      else some g

end CTraderDemoGateway

end ScalpingBot.Gateway
