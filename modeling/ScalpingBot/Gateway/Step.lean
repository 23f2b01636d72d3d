import Mathlib.Data.List.ReduceOption
import ScalpingBot.Gateway.State
import ScalpingBot.Library.Transition

/-! `CTraderDemoGateway` as a state machine. One event is one turn: a call from outside, an
    execution callback, or the settlement of a promise that a running `placeDirectional`,
    `placeOco` or cancellation awaits, together with the code up to the next `await`. Any callback
    may come between any two of them. The coordinator runs one cycle at a time, so there is at most
    one running placement.

    `reconcile` and `#cancelRecoveredOrder` only read the tracked orders and are left out. -/

namespace ScalpingBot.Gateway

/-- What a check reads beside its arguments: the clock and the client's two properties. -/
structure Env where
  now : ℕ
  tokenExpiryKnown : Bool := true
  tradePermission : Bool := true

def demoAcknowledgement : String := "I_UNDERSTAND_DEMO_ORDERS_USE_A_BROKER_DEMO_ACCOUNT"
def demoTrialStrategyLabel : String := "ctrader-ai-scalper:0.10.0-demo-trials.1-codex.1"
def trendRetestLabel : String := "ctrader-ai-scalper:0.11.0-trend-retest.1-codex.1"

/-- What a running placement's awaited promise settles with. -/
inductive Response where
  | reconciled (raw : RawReconciliation)
  | session (status : Option MarketSessionStatus)  -- `none`: `marketSession` rejected
  | ready (certain : Bool)
  | executed (e : BrokerExecution)
  | failed (error : String)

/-- The volume and deadline checks that each command of a pair passes. -/
def validateCommand (env : Env) (c : PendingOrderCommand) : Except String Unit := do
  if (← decimal c.volume) ≤ 0 ∨ ¬ Decimal.isInteger (← decimal c.volume) then
    throw "DEMO_VOLUME_INVALID"
  validateSubmissionDeadline c env.now

/-- `validatePair`. -/
def validatePair (env : Env) (first second : PendingOrderCommand) : Except String Unit := do
  if first.side = second.side then throw "DEMO_OCO_SIDES_INVALID"
  if first.orderGroupId ≠ second.orderGroupId ∨ first.analysisId ≠ second.analysisId ∨
      first.symbol ≠ second.symbol then throw "DEMO_OCO_PAIR_MISMATCH"
  if pendingOrderType first ≠ pendingOrderType second then
    throw "DEMO_OCO_EXECUTION_TYPE_MISMATCH"
  if orderTimeInForce first ≠ orderTimeInForce second then throw "DEMO_OCO_LIFETIME_MISMATCH"
  validateCommand env first
  validateCommand env second

/-- The checks that open `placeDirectional`. -/
def validateDirectional (env : Env) (c : PendingOrderCommand) : Except String Unit := do
  if pendingOrderType c = .stop ∨
      (orderTimeInForce c ≠ .gtc ∧
        ¬ (orderTimeInForce c = .gtd ∧ pendingOrderType c = .stopLimit)) ∨
      (← decimal c.volume) ≤ 0 ∨ ¬ Decimal.isInteger (← decimal c.volume) then
    throw "DEMO_DIRECTIONAL_COMMAND_INVALID"
  validateSubmissionDeadline c env.now

/-- The entry-range rule of a command, by its strategy label. -/
def entryRangeValid (c : PendingOrderCommand) : Bool :=
  if c.strategyLabel = trendRetestLabel then
    c.timeInForce = some .gtd ∧
      ((c.executionOrderType = some .stopLimit ∧ c.entryRangePoints = some 30) ∨
        (c.executionOrderType = some .limit ∧ c.entryRangePoints = none))
  else if c.strategyLabel = demoTrialStrategyLabel then
    c.entryRangePoints = some 10 ∨ c.entryRangePoints = some 30
  else c.entryRangePoints = none

namespace CTraderDemoGateway

variable (o : CTraderDemoGatewayOptions) (env : Env) (g : CTraderDemoGateway)

/-- `#assertPlacementEnabled`. -/
def assertPlacementEnabled (commands : List PendingOrderCommand) : Except String Unit := do
  if ¬ commands.all entryRangeValid then throw "DEMO_TRIAL_ENTRY_RANGE_INVALID"
  if ¬ o.placementEnabled then throw "DEMO_ORDER_PLACEMENT_DISABLED"
  if o.acknowledgement ≠ demoAcknowledgement then throw "DEMO_ACKNOWLEDGEMENT_REQUIRED"
  if ¬ env.tokenExpiryKnown then throw "DEMO_TOKEN_EXPIRY_UNKNOWN"
  if ¬ env.tradePermission then throw "DEMO_TRADE_PERMISSION_REQUIRED"
  if let some reason := g.uncertainReason then throw reason.text
  if commands.any (fun c => c.symbol ≠ o.symbolName) then throw "DEMO_ORDER_SYMBOL_MISMATCH"

/-- `#isRelevantOrder` and `#isRelevantPosition`: they differ in the option that blocks. -/
def isRelevant (block : Bool) (data : Option TradeData) : Except String Bool := do
  let data ← tradeDataOf data
  if (← data.symbolId.required "symbolId") ≠ o.symbolId then return false
  let label := (← data.label.optional "label").getD ""
  return block || o.strategyLabelPrefix.toList.isPrefixOf label.toList

/-- `#assertNoRelevantState`. -/
def assertNoRelevantState (raw : RawReconciliation) : Except String Unit := do
  if ← raw.positions.anyM (fun p => isRelevant o o.blockManualPositions p.tradeData) then
    throw "DEMO_RELEVANT_POSITION_BLOCKING"
  if ← raw.orders.anyM (fun order => isRelevant o o.blockManualOrders order.tradeData) then
    throw "DEMO_RELEVANT_PENDING_ORDER_BLOCKING"

/-- Returning from the running placement. -/
def finish (result : Except String OcoPlacementResult) : CTraderDemoGateway :=
  { g with placing := none, finished := result :: g.finished }

/-- The value that a placement returns for its tracked orders. -/
def result (orderGroupId : String) (replay : Bool) (refs : List ℕ) :
    Except String OcoPlacementResult :=
  .ok ⟨orderGroupId, replay, refs.map g.external⟩

def suspend (p : Placement) (stage : Stage) : CTraderDemoGateway :=
  { g with placing := some { p with stage := stage } }

/-- Create one tracked order for each command, with a group of them under `key`. -/
def track (key orderGroupId : String) : List TrackedOrder → CTraderDemoGateway × List ℕ
  | orders =>
    let refs := (List.range orders.length).map (g.created + ·)
    ({ g with
      tracked := fun ref =>
        if g.created ≤ ref then (orders[ref - g.created]?).getD (g.tracked ref) else g.tracked ref
      created := g.created + orders.length
      groups := g.groups ++ [⟨key, orderGroupId, refs⟩]
      orders := fun id =>
        match (refs.zip orders).reverse.find? (fun r => r.2.command.clientOrderId = id) with
        | some r => some r.1
        | none => g.orders id }, refs)

/-- The first order of the snapshot with the command's client order id. -/
def matchOrder (raw : RawReconciliation) (c : PendingOrderCommand) :
    Except String (Option BrokerOrder) := do
  for order in raw.orders do
    if (← order.clientOrderId.optional "clientOrderId") = some c.clientOrderId then
      return some order
  return none

/-- The tracked order that `#recoverIdempotent` makes of a match; `alone` is `commands.length === 1`. -/
def recoverOrder (raw : RawReconciliation) (alone : Bool) (c : PendingOrderCommand)
    (order : BrokerOrder) : Except String TrackedOrder := do
  if (← order.orderType.required "orderType") ≠ brokerOrderTypeNumber (pendingOrderType c) then
    throw "DEMO_IDEMPOTENCY_TYPE_MISMATCH"
  if alone then
    if orderTimeInForce c = .gtd then validateLifetimeAcknowledgement c order
    let data ← orderTradeData order
    if (← data.symbolId.required "symbolId") ≠ o.symbolId ∨
        (← data.label.optional "label") ≠ some c.strategyLabel ∨
        (← data.tradeSide.required "tradeSide") ≠ (match c.side with | .buy => 1 | .sell => 2) ∨
        (← decimal (← data.volume.required "volume")) ≠ c.volume then
      throw "DEMO_DIRECTIONAL_RECOVERY_OWNERSHIP_MISMATCH"
  return {
    command := c
    brokerOrderId := some (← order.orderId.required "orderId")
    state := ← stateFromOrder order
    filledVolume := (← order.executedVolume.optional "executedVolume").getD 0
    updatedAt := raw.receivedAt
    reasonCode := some "DEMO_RECOVERED_AFTER_RESTART" }

/-- What the broker's snapshot says about the commands of a placement. -/
inductive Recovery where
  | none
  | partly
  | orders (orders : List TrackedOrder)

def recoverOrders (raw : RawReconciliation) (commands : List PendingOrderCommand) :
    Except String Recovery := do
  let found ← commands.mapM (matchOrder raw)
  if found.all (·.isNone) then return .none
  if found.any (·.isNone) then return .partly
  let orders ← (commands.zip found.reduceOption).mapM fun (c, order) =>
    recoverOrder o raw (commands.length = 1) c order
  return .orders orders

/-- The tracked order of a command that is about to be dispatched. -/
def newOrder (now : ℕ) (c : PendingOrderCommand) : TrackedOrder :=
  ⟨c, none, .unknown, 0, now, some "DEMO_PLACEMENT_PENDING"⟩

/-- `order.state = "REJECTED"` with a reason, for each of the orders. -/
def reject (now : ℕ) (reasonCode : String) (refs : List ℕ) : CTraderDemoGateway :=
  refs.foldl (fun g ref => g.setTracked ref { g.tracked ref with
    state := .rejected, updatedAt := now, reasonCode := some reasonCode }) g

/-- `#rejectClosedSession`: the reason code if the session is not open. -/
def closedSession (status : Option MarketSessionStatus) : Option String :=
  if ¬ o.marketSession then none
  else match status with
    | none => some "MARKET_SESSION_UNAVAILABLE"
    | some status =>
      if status.isOpen then none
      else some (status.reasonCode.getD "MARKET_SESSION_UNAVAILABLE")

def orderGroupIdOf (p : Placement) : String := (p.commands.head?.map (·.orderGroupId)).getD ""

/-- The first two entries of the local `tracked`. -/
def firstOf (p : Placement) : ℕ := p.orders.head?.getD 0
def secondOf (p : Placement) : ℕ := p.orders.tail.head?.getD 0

/-- Return the tracked orders of the running placement. -/
def finishTracked (p : Placement) : CTraderDemoGateway :=
  g.finish (g.result (orderGroupIdOf p) false p.orders)

/-- The `catch` around the checks that precede the first dispatch. -/
def withhold (p : Placement) : CTraderDemoGateway :=
  (g.reject env.now "DEMO_PREFLIGHT_RECONCILIATION_WITHHELD" p.orders).finishTracked p

/-- Hand a tracked order to the broker client. -/
def placePendingEntry (ref : ℕ) : CTraderDemoGateway := { g with sent := .place ref :: g.sent }

def sendCancel (ref : ℕ) : CTraderDemoGateway :=
  { g with sent := .cancel (g.tracked ref).command.clientOrderId :: g.sent }

/-- The outer `catch` of `placeOco`, up to its next `await`. -/
def secondLegFailed (p : Placement) : CTraderDemoGateway :=
  let first := g.tracked (firstOf p)
  if first.brokerOrderId ≠ none ∧ first.state = .pending then
    (g.sendCancel (firstOf p)).suspend p .cancelAfterFailure
  else g.suspend p .reconcileFailed

/-- The response to a cancellation inside `placeOco`, with the `catch` around it. -/
def applyCancellation (p : Placement) (response : Option BrokerExecution) : CTraderDemoGateway :=
  match response with
  | none => g.latch .secondLegFailedCancellationUncertain (orderGroupIdOf p)
  | some e =>
    match g.applyExecution o e none with
    | (g, some _) => g.latch .secondLegFailedCancellationUncertain (orderGroupIdOf p)
    | (g, none) => g

/-- The group of the running placement. -/
def groupOf (p : Placement) : TrackedGroup := ⟨p.key, orderGroupIdOf p, p.orders⟩

/-- The second block of `placeOco`'s dispatch: the session of the second leg is known. -/
def dispatchSecond (p : Placement) (status : Option MarketSessionStatus) : CTraderDemoGateway :=
  let first := firstOf p
  let second := secondOf p
  match closedSession o status with
  | some reason =>
    let g := g.reject env.now reason [second]
    if (g.tracked first).brokerOrderId ≠ none ∧
        ((g.tracked first).state = .pending ∨ (g.tracked first).state = .partiallyFilled) then
      (g.sendCancel first).suspend p .cancelFirst
    else g.suspend p .reconcileClosed
  | none =>
    if (g.tracked first).state ≠ .pending ∨ (g.tracked first).filledVolume ≠ 0 ∨
        g.uncertainReason ≠ none then
      (g.reject env.now "DEMO_PEER_WITHHELD_BEFORE_DISPATCH" [second]).finishTracked p
    else (g.placePendingEntry second).suspend p .placeSecond

/-- The checks between the second session check and the first dispatch. -/
def dispatchFirst (p : Placement) : CTraderDemoGateway :=
  let checks : Except String Unit := do
    assertPlacementEnabled o env g p.commands
    match p.commands with
    | [c] => validateSubmissionDeadline c env.now
    | [first, second] => validatePair env first second
    | _ => return ()
  match checks with
  | .error _ => withhold env g p
  | .ok () => (g.placePendingEntry (firstOf p)).suspend p .placeFirst

/-- The end of the first `reconcileRaw`: recover, refuse, or track the orders. -/
def preflight (p : Placement) (raw : RawReconciliation) : CTraderDemoGateway :=
  match recoverOrders o raw p.commands with
  | .error error => g.finish (.error error)
  | .ok .partly =>
    (g.latch .partialIdempotencyRecovery (orderGroupIdOf p)).finish
      (.error UncertainReason.partialIdempotencyRecovery.text)
  | .ok (.orders orders) =>
    let (g, refs) := g.track p.key (orderGroupIdOf p) orders
    g.finish (g.result (orderGroupIdOf p) true refs)
  | .ok .none =>
    match assertNoRelevantState o raw with
    | .error error => g.finish (.error error)
    | .ok () =>
      let (g, refs) := g.track p.key (orderGroupIdOf p) (p.commands.map (newOrder env.now))
      g.suspend { p with orders := refs } .session

/-- The running placement goes on with what its awaited promise settled with; `none` when that is
    not what it awaits. -/
def resume (p : Placement) : Response → Option CTraderDemoGateway
  | .reconciled raw =>
    match p.stage with
    | .preflight => some (preflight o env g p raw)
    | .recheck =>
      match assertNoRelevantState o raw with
      | .error _ => some (withhold env g p)
      | .ok () => some (g.suspend p (if o.placementReadiness then .readiness else .sessionAgain))
    | .reconcileFirst =>
      if p.commands.length = 1 then some (g.finishTracked p) else some (g.suspend p .sessionSecond)
    | .reconcileClosed | .reconcilePlaced => some (g.finishTracked p)
    | .reconcileFailed =>
      some (g.finish (.error ((g.uncertainReason.map (·.text)).getD
        "DEMO_SECOND_LEG_FAILED_FIRST_LEG_CANCELLED")))
    | _ => none
  | .session status =>
    match p.stage with
    | .session | .sessionAgain =>
      match closedSession o status with
      | some reason => some ((g.reject env.now reason p.orders).finishTracked p)
      | none => some (if p.stage = .session then g.suspend p .recheck else dispatchFirst o env g p)
    | .sessionSecond => some (dispatchSecond o env g p status)
    | _ => none
  | .ready certain =>
    match p.stage with
    | .readiness => some (if certain then g.suspend p .sessionAgain else withhold env g p)
    | _ => none
  | .executed e =>
    match p.stage with
    | .placeFirst =>
      match g.applyExecution o e none with
      | (g, some error) => some (g.finish (.error error))
      | (g, none) => some (g.suspend p .reconcileFirst)
    | .cancelFirst => some ((g.applyCancellation o p (some e)).suspend p .reconcileClosed)
    | .cancelAfterFailure => some ((g.applyCancellation o p (some e)).suspend p .reconcileFailed)
    | .placeSecond =>
      match g.applyExecution o e none with
      | (g, some _) => some (g.secondLegFailed p)
      | (g, none) => some ((g.cancelPendingPeer (groupOf p)).suspend p .reconcilePlaced)
    | _ => none
  | .failed error =>
    match p.stage with
    | .preflight | .placeFirst | .reconcileFirst | .reconcileFailed =>
      some (g.finish (.error error))
    | .recheck | .readiness => some (withhold env g p)
    | .reconcileClosed | .placeSecond | .reconcilePlaced => some (g.secondLegFailed p)
    | .cancelFirst => some ((g.applyCancellation o p none).suspend p .reconcileClosed)
    | .cancelAfterFailure => some ((g.applyCancellation o p none).suspend p .reconcileFailed)
    | .session | .sessionAgain | .sessionSecond => none

/-- A known group's answer, or the start of a placement. -/
def start (key : String) (commands : List PendingOrderCommand)
    (sameType : TrackedGroup → Bool) : CTraderDemoGateway :=
  match g.groups.find? (fun group => group.key = key) with
  | some known =>
    if sameType known then g.finish (g.result known.orderGroupId true known.orders)
    else g.finish (.error "DEMO_IDEMPOTENCY_TYPE_MISMATCH")
  | none => { g with placing := some { commands := commands, key := key } }

/-- `placeDirectional` up to its first `await`. -/
def placeDirectional (c : PendingOrderCommand) : CTraderDemoGateway :=
  match (do validateDirectional env c; assertPlacementEnabled o env g [c] : Except String Unit) with
  | .error error => g.finish (.error error)
  | .ok () => g.start c.idempotencyKey [c] fun known =>
      known.orders.map (fun ref => (g.tracked ref).command) = [c]

/-- The key of a pair: the two idempotency keys in order. -/
def pairKey (first second : PendingOrderCommand) : String :=
  if first.idempotencyKey ≤ second.idempotencyKey then
    first.idempotencyKey ++ ":" ++ second.idempotencyKey
  else second.idempotencyKey ++ ":" ++ first.idempotencyKey

/-- `placeOco` up to its first `await`. -/
def placeOco (first second : PendingOrderCommand) : CTraderDemoGateway :=
  let checks : Except String Unit := do
    validatePair env first second
    assertPlacementEnabled o env g [first, second]
  match checks with
  | .error error => g.finish (.error error)
  | .ok () => g.start (pairKey first second) [first, second] fun known =>
      [first, second].all fun c =>
        match known.orders.find? (fun ref =>
          (g.tracked ref).command.clientOrderId = c.clientOrderId) with
        | none => false
        | some ref => pendingOrderType (g.tracked ref).command = pendingOrderType c

end CTraderDemoGateway

inductive Event where
  | placeDirectional (command : PendingOrderCommand)
  | placeOco (first second : PendingOrderCommand)
  | resume (response : Response)
  | callback (e : BrokerExecution)
  | cancelStrategyOrder (clientOrderId reasonCode : String)
  | cancellationDone (c : Cancellation) (response : Option BrokerExecution)
  | acknowledge (input : TerminalRecovery)

open CTraderDemoGateway in
/-- One event; `none` when it cannot happen in this state. -/
def step (o : CTraderDemoGatewayOptions) (g : CTraderDemoGateway) :
    Env × Event → Option CTraderDemoGateway
  | (env, .placeDirectional c) => if g.placing.isNone then some (placeDirectional o env g c) else none
  | (env, .placeOco first second) =>
    if g.placing.isNone then some (placeOco o env g first second) else none
  | (env, .resume response) => g.placing.bind fun p => resume o env g p response
  | (_, .callback e) => some (g.handleExecution o e)
  | (_, .cancelStrategyOrder clientOrderId reasonCode) =>
    some (g.cancelStrategyOrder o clientOrderId reasonCode)
  | (_, .cancellationDone c response) =>
    if c ∈ g.cancellations then some (g.cancellationDone o c response) else none
  | (_, .acknowledge input) => g.acknowledgeCertainTerminalRecovery input

/-- The gateway reaches `g` by the events `es` from a new gateway. -/
def Run (o : CTraderDemoGatewayOptions) (es : List (Env × Event)) (g : CTraderDemoGateway) : Prop :=
  Transition.run (step o) .initial es = some g

/-! ### A sample account -/

namespace Sample

def options : CTraderDemoGatewayOptions where
  symbolId := "1"
  symbolName := "EURUSD"
  placementEnabled := true
  acknowledgement := demoAcknowledgement
  tickSize := 1 / 100000
  maxSlippagePoints := 10
  maxSlippageBps := 100

/-- One leg of the pair `name`: 1000 units, entry at 1.1 to buy and 1.0 to sell. -/
def leg (name : String) (side : OrderSide) : PendingOrderCommand where
  idempotencyKey := name ++ (if side = .buy then "-buy" else "-sell")
  analysisId := name
  orderGroupId := name
  clientOrderId := name ++ (if side = .buy then "-b" else "-s")
  symbol := "EURUSD"
  side := side
  volume := 1000
  entryPrice := if side = .buy then 11 / 10 else 1
  stopLoss := if side = .buy then 105 / 100 else 105 / 100
  takeProfit := if side = .buy then 12 / 10 else 9 / 10
  expiresAt := some 1000
  strategyLabel := "ctrader-ai-scalper:sample"

/-- The broker's record of a leg, with its status and executed volume. -/
def record (name : String) (side : OrderSide) (status : ℕ) (executed : Decimal) : BrokerOrder where
  orderId := .value (name ++ (if side = .buy then "1" else "2"))
  clientOrderId := .value (leg name side).clientOrderId
  orderType := .value 6
  orderStatus := .value status
  executedVolume := .value executed
  tradeData := some { symbolId := .value "1", volume := .value 1000 }

/-- A broker report on a leg. -/
def report (type : ℕ) (order : BrokerOrder) (price : Field Decimal := .absent) : BrokerExecution where
  executionType := type
  order := some { order with executionPrice := price }

/-- The pair `name` is found at the broker with these two records. -/
def recover (name : String) (buy sell : BrokerOrder) : List (Env × Event) :=
  [({ now := 0 }, .placeOco (leg name .buy) (leg name .sell)),
    ({ now := 0 }, .resume (.reconciled { positions := [], orders := [buy, sell] }))]

/-- The pair `name` is found at the broker, its buy leg pending and its sell leg
    cancelled. -/
def found (name : String) : List (Env × Event) :=
  recover name (record name .buy 1 0) (record name .sell 5 0)

end Sample

end ScalpingBot.Gateway
