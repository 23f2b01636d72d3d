import ScalpingBot.Store.Ledger

/-! `PostgresDemoExecutionStore.persist` (apps/execution-service/src/demo-execution-store.ts) as a
    transaction on the tables: an error stands for the exception after the rollback. The advisory
    locks make the transactions of one account and symbol follow one another. -/

namespace ScalpingBot.Store

/-- `OrderMatch`. -/
structure OrderMatch where
  orderId : ℕ
  orderGroupId : ℕ
  brokerOrderId : Option String
  deriving DecidableEq

/-- `PositionMatch`. -/
structure PositionMatch where
  positionId : ℕ
  orderGroupId : Option ℕ
  deriving DecidableEq

/-- What the event was matched with: the rows it belongs to, and who may have closed the position. -/
structure Matched where
  order : Option OrderMatch
  position : Option PositionMatch
  authorizedMarketClose : Bool
  manualClose : Bool

/-- What a committed transaction leaves and returns. -/
abbrev Committed := Tables × DemoExecutionPersistenceResult

section

variable (o : PostgresDemoExecutionStoreOptions) (t : Tables) (event : DemoExecutionEvent)
  (source : DemoExecutionEvidenceSource) (acknowledgement : Option BrokerAcknowledgement)

/-! ### The journal -/

/-- `#insertEvent`. -/
def insertEvent (order : Option OrderMatch) (position : Option PositionMatch)
    (mappingState : MappingState) (reasonCodes : List String) : Except String Tables :=
  if (t.event o event.eventKey).isSome then
    .error "broker_execution_events_account_id_broker_event_key_key"
  else if (event.closingOrder ∧ event.brokerOrderType = none) ∨
      event.brokerOrderType.any (fun n => n < 1 ∨ 6 < n) then
    .error "broker_execution_events_closing_order_type"
  else .ok
    { t with
      events := t.events ++ [
        { id := t.nextId
          accountId := o.accountId
          symbolId := o.symbolId
          orderGroupId := (order.map (·.orderGroupId)).or (position.bind (·.orderGroupId))
          orderId := order.map (·.orderId)
          positionId := position.map (·.positionId)
          mappingState
          reasonCodes
          normalizedPayload := event }]
      nextId := t.nextId + 1 }

/-- `persistAcknowledgement`. -/
def persistAcknowledgement : Except String Tables :=
  match acknowledgement with
  | none => .ok t
  | some a =>
    if source ≠ .brokerCallback ∨ a.eventKey ≠ event.eventKey ∨ a.receivedAt ≠ event.receivedAt then
      .error "DEMO_ACKNOWLEDGEMENT_SOURCE_INVALID"
    else
      match t.event o event.eventKey with
      | none => .error "DEMO_ACKNOWLEDGEMENT_PERSIST_FAILED"
      | some row =>
        match t.acknowledgements.find? fun r =>
            r.eventId = row.id ∧ r.evidenceHash = a.evidenceHash with
        | none => .ok { t with
            acknowledgements := t.acknowledgements ++ [
              ⟨row.id, event.payloadHash, a.evidenceHash, a, a.receivedAt⟩] }
        | some r =>
          if r = ⟨row.id, event.payloadHash, a.evidenceHash, a, a.receivedAt⟩ then .ok t
          else .error "DEMO_ACKNOWLEDGEMENT_PERSIST_FAILED"

/-- The event is recorded with one reason, and nothing else. -/
def journal (order : Option OrderMatch) (position : Option PositionMatch)
    (mappingState : MappingState) (reason : String) : Except String Committed := do
  let t ← insertEvent o t event order position mappingState [reason]
  let t ← persistAcknowledgement o t event source acknowledgement
  return (t, ⟨false, [reason]⟩)

/-! ### Event keys seen before -/

/-- `INSERT INTO broker_execution_event_variants … ON CONFLICT DO NOTHING`. -/
def insertVariant (v : VariantRow) : Tables × Bool :=
  if t.variants.any fun r => r.eventId = v.eventId ∧ r.payloadHash = v.payloadHash ∧
      r.evidenceSource = v.evidenceSource then (t, false)
  else ({ t with variants := t.variants ++ [v] }, true)

def addReason (reason : String) (reasons : List String) : List String :=
  if reason ∈ reasons then reasons else reasons ++ [reason]

/-- Another payload came under the key of `duplicate`. -/
def recordVariant (duplicate : EventRow) : Except String Committed := do
  let original : VariantRow :=
    { eventId := duplicate.id
      payloadHash := duplicate.normalizedPayload.payloadHash
      normalizedPayload := duplicate.normalizedPayload
      evidenceSource := .originalJournal
      originalMappingState := duplicate.mappingState
      originalReasonCodes := duplicate.reasonCodes
      originalResolvedAt := duplicate.resolvedAt
      originalResolutionEventKey := duplicate.resolutionEventKey
      receivedAt := duplicate.normalizedPayload.receivedAt }
  let t := (insertVariant t original).1
  let (t, inserted) := insertVariant t
    { original with
      payloadHash := event.payloadHash
      normalizedPayload := event
      evidenceSource := source
      receivedAt := event.receivedAt }
  let t := if inserted ∨ duplicate.resolvedAt = none then
      { t with
        events := updateWhere
          (fun r => r.accountId = o.accountId ∧ r.normalizedPayload.eventKey = event.eventKey)
          (fun r =>
            { r with
              mappingState := .conflict
              reasonCodes := addReason "DEMO_BROKER_EVENT_KEY_CONFLICT" r.reasonCodes
              resolvedAt := none
              resolutionEventKey := none }) t.events }
    else t
  let t ← persistAcknowledgement o t event source acknowledgement
  return (t, ⟨false, ["DEMO_BROKER_EVENT_KEY_CONFLICT"]⟩)

/-- `replayTradeOutcomeConflict`. -/
def replaysTradeOutcomeConflict (duplicate : EventRow) : Bool :=
  duplicate.mappingState = .conflict ∧ duplicate.resolvedAt = none ∧
    duplicate.reasonCodes = ["DEMO_TRADE_OUTCOME_CONFLICT"] ∧ event.closesPosition ∧
    event.fill.isSome

/-- The event is the one recorded as `duplicate`. -/
def acknowledgeDuplicate (duplicate : EventRow) : Except String Committed := do
  let t ← persistAcknowledgement o t event source acknowledgement
  let reasons := if duplicate.resolvedAt = none then duplicate.reasonCodes else []
  return (t, ⟨duplicate.mappingState = .mapped ∧ reasons = [], reasons⟩)

/-! ### The rows of an event -/

def matchingOrders : List OrderMatch :=
  (t.orders.filter fun r =>
    r.accountId = o.accountId ∧
    (t.orderGroup r.orderGroupId).any (·.analysis.symbolId = o.symbolId) ∧
    (event.clientOrderId = some r.clientOrderId ∨
      (event.brokerOrderId.isSome ∧ r.brokerOrderId = event.brokerOrderId))).map
    fun r => ⟨r.id, r.orderGroupId, r.brokerOrderId⟩

def matchingPositions : List PositionMatch :=
  match event.brokerPositionId with
  | none => []
  | some id =>
    (t.positions.filter fun p => p.accountId = o.accountId ∧ p.symbolId = o.symbolId ∧
      p.brokerPositionId = some id).map fun p => ⟨p.id, p.orderGroupId⟩

/-- The protection's claim is bound to the order that closes the position. -/
def bindCloseOrder (authorized : Bool) (position : Option PositionMatch) : Except String Tables :=
  let bound := fun pp : ProtectionRow => position.any (·.positionId = pp.positionId) ∧
    pp.closeRequestedAt.isSome ∧
    (pp.brokerCloseOrderId = none ∨ pp.brokerCloseOrderId = event.brokerOrderId)
  if ¬ authorized then .ok t
  else if t.protections.any fun pp => pp.brokerCloseOrderId.isSome ∧
      pp.brokerCloseOrderId = event.brokerOrderId ∧ ¬ bound pp ∧ t.protections.any bound then
    .error "unique_protective_close_order"
  else if (t.protections.filter bound).length = 1 then
    .ok { t with
      protections := updateWhere bound
        (fun pp => { pp with brokerCloseOrderId := event.brokerOrderId }) t.protections }
  else .error "POSITION_PROTECTION_CLOSE_ACK_CONFLICT"

/-- `brokerGeneratedClosingOrder`. -/
def brokerGeneratedClosingOrder (m : Matched) : Bool :=
  (event.brokerOrderType = some 4 ∨ m.authorizedMarketClose ∨ m.manualClose) ∧
    event.closingOrder ∧ event.brokerPositionId.isSome ∧ m.position.isSome

/-! ### Orders, positions and trades -/

/-- The `UPDATE` of an order row by a report `q` of the broker order, as of `time`. -/
def OrderRow.update (r : OrderRow) (brokerOrderId : Option String) (q : GatewayOrder)
    (time : ℕ) : OrderRow :=
  { r with
    brokerOrderId := r.brokerOrderId.or brokerOrderId
    state := if r.brokerUpdatedAt.all (· ≤ time) then orderStateOf q.state else r.state
    filledVolume := max r.filledVolume q.filledVolume
    brokerUpdatedAt := some (max (r.brokerUpdatedAt.getD time) time)
    updatedAt := max r.updatedAt time
    version := r.version + 1 }

/-- The order's row is updated; its state after that. -/
def persistOrder (order : Option OrderMatch) : Except String (Tables × Option OrderState) :=
  match event.order, order with
  | some q, some m =>
    match q.updatedAt with
    | none => .error "invalid input syntax for type timestamp with time zone"
    | some time =>
      let matched := fun r : OrderRow => r.id = m.orderId ∧ r.accountId = o.accountId
      let orders := updateWhere matched (fun r => r.update event.brokerOrderId q time) t.orders
      match orders.find? matched with
      | none => .error "DEMO_EXECUTION_ORDER_PERSIST_FAILED"
      | some r =>
        if r.filledVolume < 0 ∨ r.normalizedVolume < r.filledVolume then
          .error "orders_filled_volume_check"
        else if r.brokerOrderId.isSome ∧ orders.any fun q =>
            q.id ≠ r.id ∧ q.accountId = r.accountId ∧ q.brokerOrderId = r.brokerOrderId then
          .error "unique_account_broker_order_id"
        else .ok ({ t with orders }, some r.state)
  | _, _ => .ok (t, none)

/-- The deal of a closing order enters the ledger. -/
def persistCloseDeal (manualClose : Bool) :
    Except String (Tables × Option DemoExecutionCloseDetail) :=
  if event.closeDetail.isSome ∧ event.fill.isSome ∧ event.closingOrder then do
    let (t, aggregate) ← recordPositionClose o t event manualClose
    return (t, some aggregate)
  else .ok (t, none)

/-- The conflict clause of the position's insert, for the stored row `r` and the proposed `e`. -/
def PositionRow.merge (r e : PositionRow) : PositionRow :=
  { r with
    orderGroupId := r.orderGroupId.or e.orderGroupId
    state := if r.updatedAt ≤ e.updatedAt then e.state else r.state
    volume := if r.updatedAt ≤ e.updatedAt then e.volume else r.volume
    entryPrice := if r.updatedAt ≤ e.updatedAt then e.entryPrice.or r.entryPrice else r.entryPrice
    stopLoss := if r.updatedAt ≤ e.updatedAt then e.stopLoss else r.stopLoss
    takeProfit := if r.updatedAt ≤ e.updatedAt then e.takeProfit else r.takeProfit
    openedAt := r.openedAt.or e.openedAt
    closedAt := if r.updatedAt ≤ e.updatedAt then e.closedAt.or r.closedAt else r.closedAt
    updatedAt := max r.updatedAt e.updatedAt
    reconciliationVersion := r.reconciliationVersion + 1 }

/-- `INSERT INTO positions … ON CONFLICT … DO UPDATE`, and the stored row. -/
def upsertPosition (e : PositionRow) : Except String (Tables × PositionRow) :=
  if e.volume < 0 ∨ e.entryPrice.any (· ≤ 0) then .error "positions_check"
  else
    let same := fun p : PositionRow =>
      p.accountId = e.accountId ∧ p.brokerPositionId = e.brokerPositionId
    match t.positions.find? same with
    | some r => .ok ({ t with positions := updateWhere same (·.merge e) t.positions }, r.merge e)
    | none =>
      if t.positions.any (·.id = e.id) then .error "positions_pkey"
      else .ok ({ t with positions := t.positions ++ [e], nextId := t.nextId + 1 }, e)

/-- `#persistClosedTrade`: the trade of a closed position, or the reason for having none. -/
def persistClosedTrade (position : PositionRow) (closeDetail : DemoExecutionCloseDetail) :
    Except String (Tables × Option String) :=
  if position.state ≠ .closed then .error "DEMO_TRADE_POSITION_NOT_CLOSED"
  else
    match position.openedAt, position.closedAt with
    | some openedAt, some closedAt =>
      match position.orderGroupId.bind t.orderGroup with
      | none => .ok (t, some "DEMO_TRADE_MODEL_CONTEXT_MISSING")
      | some g =>
        match g.analysis.mode, g.analysis.model with
        | .demo, some model =>
          match closeDetail.closedVolume with
          | none => .ok (t, some "DEMO_TRADE_CLOSED_VOLUME_MISSING")
          | some closedVolume =>
            if closedVolume ≠ t.entryVolume position.id then
              .ok (t, some "DEMO_TRADE_CLOSED_VOLUME_MISMATCH")
            else
              match model.parsedPayload with
              | some ⟨some overall, some setupTags, some marketRegime⟩ =>
                if 100 < overall then .ok (t, some "DEMO_TRADE_MODEL_CONTEXT_INVALID")
                else
                  let fees := Decimal.plus (Decimal.plus closeDetail.swap closeDetail.commission)
                    closeDetail.pnlConversionFee
                  if t.trades.any (·.positionId = some position.id) then
                    .error "DEMO_TRADE_OUTCOME_CONCURRENT_CONFLICT"
                  else if closedAt < openedAt then .error "trades_closed_at_check"
                  else .ok
                    ({ t with
                      trades := t.trades ++ [
                        { orderGroupId := g.id
                          positionId := some position.id
                          direction := position.side
                          setupTags
                          marketRegime
                          confidenceBucket :=
                            if 75 ≤ overall then "HIGH" else if 50 ≤ overall then "MEDIUM" else "LOW"
                          realizedPnl := Decimal.plus closeDetail.grossProfit fees
                          fees
                          openedAt
                          closedAt
                          model
                          strategyVersion := g.analysis.strategyVersion }] }, none)
              | _ => .ok (t, some "DEMO_TRADE_MODEL_CONTEXT_INVALID")
        | _, _ => .ok (t, some "DEMO_TRADE_MODEL_CONTEXT_MISSING")
    | _, _ => .ok (t, some "DEMO_TRADE_TIMESTAMPS_MISSING")

/-- The row proposed for the position of an event. -/
def proposedPosition (p : DemoExecutionPosition) (position : Option PositionMatch)
    (orderGroupId : ℕ) : PositionRow :=
  { id := (position.map (·.positionId)).getD t.nextId
    accountId := o.accountId
    symbolId := o.symbolId
    orderGroupId := some orderGroupId
    brokerPositionId := some p.brokerPositionId
    side := p.side
    state := p.state
    strategyOwned := true
    volume := p.volume
    entryPrice := p.entryPrice
    stopLoss := p.stopLoss
    takeProfit := p.takeProfit
    openedAt := p.openedAt
    closedAt := p.closedAt
    updatedAt := p.updatedAt }

/-- The position's row is written, and the trade when the event closes it. -/
def persistPosition (position : Option PositionMatch) (orderGroupId : ℕ)
    (aggregate : Option DemoExecutionCloseDetail) :
    Except String (Tables × Option PositionMatch × Option String) :=
  match event.position with
  | none => .ok (t, position, none)
  | some p => do
    let (t, stored) ← upsertPosition t (proposedPosition o t p position orderGroupId)
    let position := some ⟨stored.id, some orderGroupId⟩
    match p.state, event.closeDetail with
    | .closed, some d =>
      let (t, reason) ← persistClosedTrade t stored (aggregate.getD d)
      return (t, position, reason)
    | _, _ => return (t, position, none)

/-- `INSERT INTO fills … ON CONFLICT (broker_event_key) DO NOTHING`. -/
def persistFill (order : Option OrderMatch) (position : Option PositionMatch) :
    Except String Tables :=
  match event.fill with
  | none => .ok t
  | some f =>
    if order = none ∧ position = none then .error "DEMO_EXECUTION_FILL_OWNER_MISSING"
    else if f.price ≤ 0 ∨ f.volume ≤ 0 then .error "fills_check"
    else
      let key := o.accountId ++ ":" ++ event.eventKey
      if t.fills.any (·.brokerEventKey = key) then .ok t
      else .ok
        { t with
          fills := t.fills ++ [
            { orderId := order.map (·.orderId)
              positionId := position.map (·.positionId)
              brokerEventKey := key
              brokerFillId := f.brokerFillId
              price := f.price
              volume := f.volume
              commission := f.commission
              occurredAt := f.occurredAt
              receivedAt := event.receivedAt }] }

end

/-! ### Order groups -/

/-- The state of a group, computed from its orders, positions and trades. -/
def groupState (t : Tables) (id : ℕ) : OrderGroupState :=
  let orders := t.orders.filter (·.orderGroupId = id)
  let positions := t.positions.filter (·.orderGroupId = some id)
  let trades := t.trades.filter (·.orderGroupId = id)
  let order := fun states : List OrderState => orders.any (·.state ∈ states)
  if !trades.isEmpty ∧
    ¬ positions.any (·.state ∈ [.opened, .closing, .unknown, .reconciliationPending]) ∧
    ¬ order [.intent, .submitting, .pending, .partiallyFilled, .cancelPending, .unknown] ∧
    ¬ positions.any (fun p => p.state ≠ .closed ∨ ¬ trades.any (·.positionId = some p.id)) then
    .closed
  else if positions.any (·.state = .closed) then .reconciliationRequired
  else if order [.partiallyFilled, .cancelPending, .unknown] then .reconciliationRequired
  else if order [.filled] ∧ order [.intent, .submitting, .pending] then .cancellingPeer
  else if order [.filled] then .positionOpen
  else if ¬ order [.intent, .submitting, .pending] ∧ order [.expired] then .expired
  else if ¬ order [.intent, .submitting, .pending] then .failed
  else .active

/-- Every order of the group was cancelled without a fill. -/
def zeroFillCancelled (t : Tables) (g : OrderGroupRow) : Bool :=
  let orders := t.orders.filter (·.orderGroupId = g.id)
  orders.length = (if g.entrySide = none then 2 else 1) ∧
    ¬ orders.any (fun r => ¬ r.strategyOwned ∨ r.state ≠ .cancelled ∨ r.filledVolume ≠ 0) ∧
    ¬ t.fills.any (fun f => orders.any fun r => f.orderId = some r.id) ∧
    ¬ t.positions.any (·.orderGroupId = some g.id)

/-- The `UPDATE` of the event's group. -/
def updateOrderGroup (t : Tables) (id : ℕ) (occurredAt : ℕ) : Tables :=
  { t with
    orderGroups := updateWhere (fun g => g.id = id ∧ g.state ∉ [.closed, .expired])
      (fun g =>
        { g with
          state := groupState t id
          cancellationReason :=
            if g.cancellationReason = none ∧ zeroFillCancelled t g then
              some "DEMO_BROKER_ZERO_FILL_CANCELLED"
            else g.cancellationReason
          updatedAt := max g.updatedAt occurredAt }) t.orderGroups }

/-! ### Resolutions -/

section

variable (o : PostgresDemoExecutionStoreOptions) (t : Tables) (event : DemoExecutionEvent)

/-- Unresolved events that satisfy `p` are resolved by this one. -/
def resolveEvents (p : EventRow → Bool) (f : EventRow → EventRow) : Tables :=
  { t with
    events := updateWhere
      (fun r => r.accountId = o.accountId ∧ r.resolvedAt = none ∧ p r)
      (fun r => f { r with
        resolvedAt := some event.occurredAt, resolutionEventKey := some event.eventKey }) t.events }

/-- A filled order settles its earlier partial fills. -/
def resolvePartialFills (storedOrderState : Option OrderState) : Tables :=
  if storedOrderState = some .filled ∧ event.brokerOrderId.isSome then
    resolveEvents o t event (fun r =>
      r.normalizedPayload.brokerOrderId = event.brokerOrderId ∧
      r.normalizedPayload.eventKey ≠ event.eventKey ∧ r.mappingState = .mapped ∧
      r.reasonCodes = ["DEMO_PARTIAL_FILL_RECONCILIATION_REQUIRED"]) id
  else t

/-- A close settles what its closing order had left open. -/
def resolveClosingOrder (m : Matched) : Tables :=
  if event.closesPosition ∧
      (event.brokerOrderType = some 4 ∨ m.authorizedMarketClose ∨ m.manualClose) ∧
      event.closingOrder ∧ event.brokerOrderId.isSome then
    resolveEvents o t event (fun r =>
      let e := r.normalizedPayload
      e.brokerOrderId = event.brokerOrderId ∧ e.eventKey ≠ event.eventKey ∧
      (r.reasonCodes = ["DEMO_CLOSING_ORDER_AWAITING_DEAL"] ∨
        r.reasonCodes = ["DEMO_EXECUTION_BROKER_ORDER_ID_CONFLICT"] ∨
        (m.manualClose ∧ event.brokerPositionId.isSome ∧
          e.brokerPositionId = event.brokerPositionId ∧ e.occurredAt ≤ event.occurredAt ∧
          e.executionType = 2 ∧ e.brokerOrderType = some 1 ∧ e.closingOrder ∧ e.fill = none ∧
          e.closeDetail = none ∧ r.reasonCodes = ["DEMO_POSITION_CLOSE_NOT_AUTHORIZED"])))
      (fun r => { r with mappingState := .mapped })
  else t

/-- A complete close settles the partial closes in the ledger. -/
def resolvePartialCloses (position : Option PositionMatch)
    (aggregate : Option DemoExecutionCloseDetail) : Tables :=
  if event.positionState = some .closed ∧ aggregate.isSome then
    resolveEvents o t event (fun r =>
      position.isSome ∧ r.positionId = position.map (·.positionId) ∧ r.mappingState = .mapped ∧
      r.reasonCodes = ["DEMO_PARTIAL_CLOSE_RECONCILIATION_REQUIRED"] ∧
      r.normalizedPayload.occurredAt ≤ event.occurredAt ∧
      t.closeDeals.any (fun d => some d.positionId = r.positionId ∧
        some d.brokerDealId = r.normalizedPayload.brokerFillId)) id
  else t

/-! ### The transaction -/

variable (source : DemoExecutionEvidenceSource) (acknowledgement : Option BrokerAcknowledgement)

/-- The reasons an applied event is recorded with. -/
def mappedReasons (tradeReason : Option String) (storedOrderState : Option OrderState) :
    List String :=
  let reasons := tradeReason.elim (demoExecutionReasonCodes event)
    fun r => addReason r (demoExecutionReasonCodes event)
  if storedOrderState = some .partiallyFilled then
    addReason "DEMO_PARTIAL_FILL_RECONCILIATION_REQUIRED" reasons
  else reasons

/-- An applied event is recorded, unless it is the replay of a recorded one. -/
def recordMapped (order : Option OrderMatch) (position : Option PositionMatch)
    (reasons : List String) (replay : Bool) : Except String Tables :=
  if replay then .ok t else insertEvent o t event order position .mapped reasons

/-- The event is applied to the rows of its order, position and group. -/
def persistMapped (m : Matched) (orderGroupId : ℕ) (replay : Bool) :
    Except String Committed := do
  let (t, storedOrderState) ← persistOrder o t event m.order
  let (t, aggregate) ← persistCloseDeal o t event m.manualClose
  let (t, position, tradeReason) ← persistPosition o t event m.position orderGroupId aggregate
  let t ← persistFill o t event m.order position
  let t := updateOrderGroup t orderGroupId event.occurredAt
  let reasons := mappedReasons event tradeReason storedOrderState
  let t ← recordMapped o t event m.order position reasons replay
  let t := resolvePartialFills o t event storedOrderState
  let t := resolveClosingOrder o t event m
  let t := resolvePartialCloses o t event position aggregate
  let t ← persistAcknowledgement o t event source acknowledgement
  let reasons := if replay then ["DEMO_TRADE_OUTCOME_CONFLICT"] else reasons
  return (t, ⟨reasons = [], reasons⟩)

/-- The event is applied unless its position has a trade already. -/
def persistInGroup (m : Matched) (orderGroupId : ℕ) (replay : Bool) : Except String Committed :=
  if event.closesPosition ∧ m.position.any fun p => t.trades.any (·.positionId = some p.positionId)
  then journal o t event source acknowledgement m.order m.position .conflict
    "DEMO_TRADE_OUTCOME_CONFLICT"
  else persistMapped o t event source acknowledgement m orderGroupId replay

/-- The group of the event's order, else that of its position. -/
def persistMatched (m : Matched) (replay : Bool) : Except String Committed :=
  if m.order.any fun q => q.brokerOrderId.isSome ∧ event.brokerOrderId.isSome ∧
      q.brokerOrderId ≠ event.brokerOrderId then
    journal o t event source acknowledgement m.order m.position .conflict
      "DEMO_EXECUTION_BROKER_ORDER_ID_CONFLICT"
  else
    match (m.order.map (·.orderGroupId)).or (m.position.bind (·.orderGroupId)) with
    | none => journal o t event source acknowledgement none m.position .unmatched
        "DEMO_EXECUTION_LOCAL_INTENT_NOT_FOUND"
    | some orderGroupId =>
      persistInGroup o t event source acknowledgement m orderGroupId replay

/-- A close binds its claim; a closing order of the broker's is no order of the strategy's. -/
def persistAuthorized (m : Matched) (replay : Bool) : Except String Committed := do
  let t ← bindCloseOrder t event m.authorizedMarketClose m.position
  if m.order.isSome ∧ brokerGeneratedClosingOrder event m then
    if m.position.bind (·.orderGroupId) ≠ m.order.map (·.orderGroupId) then
      journal o t event source acknowledgement m.order m.position .conflict
        "DEMO_EXECUTION_CLOSING_ORDER_GROUP_CONFLICT"
    else persistMatched o t event source acknowledgement { m with order := none } replay
  else persistMatched o t event source acknowledgement m replay

/-- The event is matched with an order and a position. -/
def persistEvent (replay : Bool) : Except String Committed :=
  let orders := matchingOrders o t event
  let positions := matchingPositions o t event
  if 1 < (orders.map (·.orderId)).dedup.length then
    journal o t event source acknowledgement none none .conflict "DEMO_EXECUTION_ORDER_AMBIGUOUS"
  else if 1 < positions.length then
    journal o t event source acknowledgement orders.head? none .conflict
      "DEMO_EXECUTION_POSITION_AMBIGUOUS"
  else
    let authorizedMarketClose := event.brokerOrderType = some 1 ∧ event.closingOrder ∧
      event.brokerPositionId.isSome ∧ event.brokerOrderId.isSome ∧
      t.protectiveCloseAuthorized o event
    let manualClose := ¬ authorizedMarketClose ∧ observedManualClose o t event
    if event.closingOrder ∧ event.brokerOrderType ≠ some 4 ∧ ¬ authorizedMarketClose ∧
        ¬ manualClose then
      journal o t event source acknowledgement orders.head? positions.head? .unmatched
        "DEMO_POSITION_CLOSE_NOT_AUTHORIZED"
    else
      persistAuthorized o t event source acknowledgement
        ⟨orders.head?, positions.head?, authorizedMarketClose, manualClose⟩ replay

/-- `persist`. -/
def persist : Except String Committed :=
  match t.event o event.eventKey with
  | none => persistEvent o t event source acknowledgement false
  | some duplicate =>
    if duplicate.normalizedPayload.payloadHash ≠ event.payloadHash then
      recordVariant o t event source acknowledgement duplicate
    else if replaysTradeOutcomeConflict event duplicate then
      persistEvent o t event source acknowledgement true
    else acknowledgeDuplicate o t event source acknowledgement duplicate

end

/-! ### Deliveries -/

/-- One call of `persist`. -/
structure Delivery where
  event : DemoExecutionEvent
  source : DemoExecutionEvidenceSource := .unspecified
  acknowledgement : Option BrokerAcknowledgement := none

/-- The tables after a call: an exception leaves them as they were. -/
def deliver (o : PostgresDemoExecutionStoreOptions) (t : Tables) (d : Delivery) : Tables :=
  match persist o t d.event d.source d.acknowledgement with
  | .ok (t', _) => t'
  | .error _ => t

/-- The tables after a sequence of calls. -/
def deliverAll (o : PostgresDemoExecutionStoreOptions) (t : Tables) (ds : List Delivery) : Tables :=
  ds.foldl (deliver o) t

/-- The tables after a sequence of calls that all commit. -/
def persistAll (o : PostgresDemoExecutionStoreOptions) : Tables → List Delivery → Except String Tables
  | t, [] => .ok t
  | t, d :: ds => do
    let (t, _) ← persist o t d.event d.source d.acknowledgement
    persistAll o t ds

/-! ### A sample store -/

namespace Sample

def options : PostgresDemoExecutionStoreOptions := ⟨"account", "symbol"⟩

def order : OrderRow where
  id := 2
  accountId := "account"
  orderGroupId := 1
  clientOrderId := "cas-b"
  brokerOrderId := none
  state := .submitting
  normalizedVolume := 1000
  updatedAt := 0

/-- A demo group of one buy order, submitted and not yet reported by the broker. -/
def store : Tables where
  orderGroups := [
    { id := 1
      analysis := ⟨"account", "symbol", .demo, "1",
        some ⟨"model", "prompt", "schema", some ⟨some 80, some [], some "TREND"⟩⟩⟩
      mode := .demo
      entrySide := some .buy
      state := .submitting
      updatedAt := 0 }]
  orders := [order]
  nextId := 3

/-- A report on the buy order. -/
def report (key : String) (executionType : ℕ) (state : ExternalOrderState) (filled : Decimal)
    (time : ℕ) : DemoExecutionEvent where
  eventKey := key
  payloadHash := key
  executionType
  clientOrderId := some "cas-b"
  brokerOrderId := some "1"
  brokerPositionId := none
  brokerFillId := none
  brokerOrderType := some 3
  closingOrder := false
  order := some ⟨"cas-b", some "1", state, filled, some time, none⟩
  position := none
  fill := none
  closeDetail := none
  occurredAt := time
  receivedAt := time

/-- The fill of the buy order that opens the position. -/
def entry : DemoExecutionEvent :=
  { report "deal:1" 3 .filled 1000 2 with
    brokerPositionId := some "9"
    brokerFillId := some "1"
    position := some ⟨"9", .buy, .opened, 1000, some 10, none, none, some 2, none, 2⟩
    fill := some ⟨"1", "1", "9", 10, 1000, 0, 2⟩ }

/-- A deal that closes the position with the given profit. -/
def close (deal : String) (profit : Decimal) : DemoExecutionEvent where
  eventKey := "deal:" ++ deal
  payloadHash := "deal:" ++ deal
  executionType := 3
  clientOrderId := none
  brokerOrderId := some "7"
  brokerPositionId := some "9"
  brokerFillId := some deal
  brokerOrderType := some 4
  closingOrder := true
  order := some ⟨"", some "7", .filled, 1000, some 5, none⟩
  position := some ⟨"9", .buy, .closed, 0, some 10, none, none, some 2, some 5, 5⟩
  fill := some ⟨deal, "7", "9", 11, 1000, 0, 5⟩
  closeDetail := some ⟨10, profit, 0, 0, 0, some 1000⟩
  occurredAt := 5
  receivedAt := 5

end Sample

end ScalpingBot.Store
