import Mathlib.Data.Nat.Digits.Defs
import ScalpingBot.Execution.Fields
import ScalpingBot.Library.Checked
import ScalpingBot.Store.Persist

/-! The normalization of broker executions, `normalizeDemoExecution` of
    apps/execution-service/src/demo-execution.ts, over the raw fields of
    packages/ctrader-client/src/protocol.ts: what of an event depends on the local time at which it
    was received. -/

namespace ScalpingBot.Execution

open Store (DemoExecutionFill DemoExecutionPosition PositionState)

/-! ### Fields -/

def optionalBooleanField (object : RawRecord) (key : String) : Except String (Option Bool) :=
  match object.lookup key with
  | none | some .null => .ok none
  | some (.boolean value) => .ok (some value)
  | _ => .error (fieldInvalid key)

section

variable {Payload : Type} (P : Platform Payload)

/-- A `Date` of milliseconds. -/
def isoTimestamp (value : Decimal) (reason : String) : Except String ℕ :=
  if isSafe value ∧ 0 ≤ value ∧ value ≤ 8640000000000000 then .ok value.num.toNat
  else .error reason

def optionalTimestamp (value : Option Decimal) (reason : String) : Except String (Option ℕ) :=
  match value with
  | none => .ok none
  | some value => some <$> isoTimestamp value reason

def parseDecimal (key value : String) : Except String Decimal :=
  match P.decimal value with
  | some d => .ok d
  | none => .error (fieldInvalid key)

def decimalField (object : RawRecord) (key : String) : Except String Decimal := do
  parseDecimal P key (← stringField object key)

def optionalDecimalField (object : RawRecord) (key : String) :
    Except String (Option Decimal) := do
  match ← optionalStringField object key with
  | none => return none
  | some value => some <$> parseDecimal P key value

def priceField (object : RawRecord) (key : String) (required : Bool) :
    Except String (Option Decimal) := do
  match ← optionalNumberField P object key with
  | none => if required then throw (fieldInvalid key) else return none
  | some price => if price ≤ 0 then throw (fieldInvalid key) else return some price

/-- The pattern of a zero text, `/^0(?:\.0+)?$/`. -/
def isZeroText (value : String) : Bool :=
  match value.toList with
  | ['0'] => true
  | '0' :: '.' :: digit :: digits => (digit :: digits).all (· = '0')
  | _ => false

def zeroPrice : Raw → Bool
  | .number n => n = 0
  | .text value => isZeroText value
  | _ => false

def money (object : RawRecord) (key : String) (moneyDigits : Decimal)
    (fallback : Option String := none) : Except String Decimal := do
  match (← optionalStringField object key).or fallback with
  | none => throw (fieldInvalid key)
  | some value =>
    require (isSafe moneyDigits ∧ 0 ≤ moneyDigits ∧ moneyDigits ≤ 18)
      "CTRADER_MONEY_DIGITS_INVALID"
    return (← parseDecimal P key value).div (10 ^ moneyDigits.num.toNat)

def tradeData (entity : RawRecord) : Except String RawRecord :=
  record (entity.lookup "tradeData") "CTRADER_TRADE_DATA_INVALID"

def assertSymbol (entity : Option RawRecord) (symbolId : String) : Except String Unit :=
  match entity with
  | none => .ok ()
  | some entity => do
    let data ← tradeData entity
    require ((← stringField data "symbolId") = symbolId) "DEMO_EXECUTION_SYMBOL_MISMATCH"

def label (entity : Option RawRecord) : Except String String :=
  match entity with
  | none => .ok ""
  | some entity => do return (← optionalStringField (← tradeData entity) "label").getD ""

def side (data : RawRecord) : Except String OrderSide := do
  let tradeSide ← numberField P data "tradeSide"
  if tradeSide = 1 then return .buy
  else if tradeSide = 2 then return .sell
  else throw "CTRADER_TRADE_SIDE_INVALID"

/-! ### Orders, positions and deals -/

def orderState (order : RawRecord) : Except String ExternalOrderState := do
  let data ← tradeData order
  let total ← decimalField P data "volume"
  let executed := (← optionalDecimalField P order "executedVolume").getD 0
  require (total.isInteger ∧ 0 < total ∧ executed.isInteger) "CTRADER_ORDER_VOLUME_INVALID"
  require (0 ≤ executed ∧ executed ≤ total) "CTRADER_ORDER_EXECUTED_VOLUME_INVALID"
  if 0 < executed ∧ executed < total then
    return .partiallyFilled
  let status ← numberField P order "orderStatus"
  if status = 1 then return if executed = 0 then .pending else .unknown
  else if status = 2 then return if executed = total then .filled else .unknown
  else if status = 3 then return .rejected
  else if status = 4 then return .expired
  else if status = 5 then return .cancelled
  else return .unknown

def normalizeOrder (order : RawRecord) (receivedAt : ℕ) (errorCode : Option String) :
    Except String GatewayOrder := do
  let updatedAt ← optionalTimestamp (← optionalNumberField P order "utcLastUpdateTimestamp")
    "CTRADER_ORDER_TIMESTAMP_INVALID"
  let clientOrderId ← optionalStringField order "clientOrderId"
  let brokerOrderId ← stringField order "orderId"
  let state ← orderState P order
  let filledVolume ← optionalDecimalField P order "executedVolume"
  return {
    clientOrderId := clientOrderId.getD ""
    brokerOrderId := some brokerOrderId
    state := state
    filledVolume := filledVolume.getD 0
    updatedAt := some (updatedAt.getD receivedAt)
    reasonCode := errorCode }

/-- The states that an execution type allows, where it restricts them. -/
def allowedStates : ℕ → Option (List ExternalOrderState)
  | 2 => some [.pending]
  | 3 => some [.filled]
  | 4 => some [.pending, .partiallyFilled]
  | 5 => some [.cancelled, .partiallyFilled]
  | 6 => some [.expired, .partiallyFilled]
  | 7 => some [.rejected]
  | 11 => some [.partiallyFilled]
  | _ => none

def assertExecutionOrderState (executionType : ℕ) (state : ExternalOrderState) :
    Except String Unit :=
  require ((allowedStates executionType).all fun states => state ∈ states)
    "DEMO_EXECUTION_ORDER_STATE_MISMATCH"

def positionState (status : Decimal) : PositionState :=
  if status = 1 then .opened
  else if status = 2 then .closed
  else if status = 3 then .reconciliationPending
  else .unknown

/-- The entry price: of a closed position without a price it is that of the closing deal. -/
def positionEntryPrice (position : RawRecord) (state : PositionState)
    (terminalEntryPrice : Option Decimal) : Except String (Option Decimal) :=
  if state = .closed ∧ terminalEntryPrice.isSome ∧
      (isAbsent position "price" ∨ (position.lookup "price").any zeroPrice) then
    .ok terminalEntryPrice
  else priceField P position "price" (state = .opened)

def normalizePosition (position : RawRecord) (receivedAt : ℕ)
    (terminalEntryPrice : Option Decimal) (terminalCloseTime : Option ℕ) :
    Except String DemoExecutionPosition := do
  let data ← tradeData position
  let state := positionState (← numberField P position "positionStatus")
  let updatedAt ← optionalTimestamp (← optionalNumberField P position "utcLastUpdateTimestamp")
    "CTRADER_POSITION_TIMESTAMP_INVALID"
  let volume ← decimalField P data "volume"
  require (volume.isInteger ∧ 0 ≤ volume) "CTRADER_POSITION_VOLUME_INVALID"
  let brokerPositionId ← stringField position "positionId"
  let tradeSide ← side P data
  let entryPrice ← positionEntryPrice P position state terminalEntryPrice
  let stopLoss ← priceField P position "stopLoss" false
  let takeProfit ← priceField P position "takeProfit" false
  let openedAt ← optionalTimestamp (← optionalNumberField P data "openTimestamp")
    "CTRADER_POSITION_OPEN_TIMESTAMP_INVALID"
  let closedAt ← optionalTimestamp (← optionalNumberField P data "closeTimestamp")
    "CTRADER_POSITION_CLOSE_TIMESTAMP_INVALID"
  return {
    brokerPositionId := brokerPositionId
    side := tradeSide
    state := state
    volume := volume
    entryPrice := entryPrice
    stopLoss := stopLoss
    takeProfit := takeProfit
    openedAt := openedAt
    closedAt := closedAt.or (if state = .closed then terminalCloseTime else none)
    updatedAt := updatedAt.getD receivedAt }

/-- `DemoExecutionCloseDetail`, with all of its fields. -/
structure CloseDetail where
  entryPrice : Option Decimal
  grossProfit : Decimal
  swap : Decimal
  commission : Decimal
  pnlConversionFee : Decimal
  balance : Decimal
  closedVolume : Option Decimal
  quoteToDepositConversionRate : Option Decimal
  balanceVersion : Option String
  deriving DecidableEq

def normalizeCloseDetail (deal : RawRecord) : Except String (Option CloseDetail) := do
  match deal.lookup "closePositionDetail" with
  | none => return none
  | some detail =>
    let detail ← record (some detail) "CTRADER_CLOSE_POSITION_DETAIL_INVALID"
    let digits ← numberField P detail "moneyDigits"
    let closedVolume ← optionalDecimalField P detail "closedVolume"
    require (closedVolume.all fun volume => volume.isInteger ∧ 0 < volume)
      "CTRADER_CLOSE_VOLUME_INVALID"
    let balanceVersion ← optionalStringField detail "balanceVersion"
    require (balanceVersion.all fun version => version.toList.all Char.isDigit)
      "CTRADER_BALANCE_VERSION_INVALID"
    let entryPrice ← priceField P detail "entryPrice" true
    let grossProfit ← money P detail "grossProfit" digits
    let swap ← money P detail "swap" digits
    let commission ← money P detail "commission" digits
    let pnlConversionFee ← money P detail "pnlConversionFee" digits (some "0")
    let balance ← money P detail "balance" digits
    let rate ← priceField P detail "quoteToDepositConversionRate" false
    return some ⟨entryPrice, grossProfit, swap, commission, pnlConversionFee, balance, closedVolume,
      rate, balanceVersion⟩

/-- What a deal contributes to an event. -/
structure DealParts where
  fill : Option DemoExecutionFill := none
  brokerFillId : Option String := none
  brokerDealId : Option String := none
  dealOccurredAt : Option ℕ := none
  deriving DecidableEq

/-- The commission of a deal; without one it is zero. -/
def dealCommission (deal : RawRecord) : Except String Decimal := do
  let digits ← optionalNumberField P deal "moneyDigits"
  match ← optionalStringField deal "commission", digits with
  | none, _ => return 0
  | some _, none => throw "CTRADER_MONEY_DIGITS_INVALID"
  | some _, some digits => money P deal "commission" digits

/-- The deal of an execution, against the order and the position of it. -/
def normalizeDeal (deal : RawRecord) (executionType : ℕ) (brokerOrderId brokerPositionId :
    Option String) (closeDetail : Option CloseDetail) : Except String DealParts := do
  let brokerDealId ← stringField deal "dealId"
  let orderId ← stringField deal "orderId"
  require (brokerOrderId = some orderId) "DEMO_EXECUTION_DEAL_ORDER_MISMATCH"
  let positionId ← stringField deal "positionId"
  require (brokerPositionId = some positionId) "DEMO_EXECUTION_DEAL_POSITION_MISMATCH"
  let dealStatus ← numberField P deal "dealStatus"
  let filledDeal := dealStatus = 2 ∨ dealStatus = 3
  let nonFilledDeal := dealStatus = 4 ∨ dealStatus = 5 ∨ dealStatus = 6 ∨ dealStatus = 7
  require (filledDeal ∨ nonFilledDeal) "DEMO_EXECUTION_DEAL_STATUS_INVALID"
  require (executionType ∈ [3, 11] → filledDeal) "DEMO_EXECUTION_DEAL_STATUS_INVALID"
  require (nonFilledDeal → executionType ∈ [5, 6, 7]) "DEMO_EXECUTION_DEAL_STATUS_INVALID"
  let occurredAt ← isoTimestamp (← numberField P deal "executionTimestamp")
    "CTRADER_DEAL_TIMESTAMP_INVALID"
  let fillVolume ← decimalField P deal "filledVolume"
  require fillVolume.isInteger "CTRADER_DEAL_FILLED_VOLUME_INVALID"
  if filledDeal then
    require (0 < fillVolume) "CTRADER_DEAL_FILLED_VOLUME_INVALID"
    let commission ← dealCommission P deal
    let price ← priceField P deal "executionPrice" true
    return {
      fill := some ⟨brokerDealId, orderId, positionId, price.getD 0, fillVolume, commission,
        occurredAt⟩
      brokerFillId := some brokerDealId
      brokerDealId := some brokerDealId
      dealOccurredAt := some occurredAt }
  else
    require (fillVolume = 0 ∧ closeDetail.isNone) "CTRADER_NON_FILLED_DEAL_INVALID"
    return { brokerDealId := some brokerDealId, dealOccurredAt := some occurredAt }

end

/-! ### Executions -/

structure BrokerExecution where
  executionType : ℕ
  order : Option RawRecord
  position : Option RawRecord
  deal : Option RawRecord
  errorCode : Option String
  receivedAt : Option ℕ

structure DemoExecutionNormalizerOptions where
  symbolId : String
  strategyLabelPrefix : String := "ctrader-ai-scalper"

/-- What is hashed of an event. -/
structure EventPayload where
  executionType : ℕ
  clientOrderId : Option String
  brokerOrderId : Option String
  brokerPositionId : Option String
  brokerFillId : Option String
  brokerOrderType : Option Decimal
  closingOrder : Bool
  order : Option GatewayOrder
  position : Option DemoExecutionPosition
  fill : Option DemoExecutionFill
  closeDetail : Option CloseDetail
  occurredAt : ℕ
  errorCode : Option String
  deriving DecidableEq

structure NormalizedEvent where
  payload : EventPayload
  eventKey : String
  payloadHash : String
  receivedAt : ℕ
  deriving DecidableEq

/-- The part of the close detail that the store reads. -/
def CloseDetail.stored (detail : CloseDetail) : Store.DemoExecutionCloseDetail :=
  ⟨detail.entryPrice.getD 0, detail.grossProfit, detail.swap, detail.commission,
    detail.pnlConversionFee, detail.closedVolume⟩

/-- The event as the store receives it. -/
def NormalizedEvent.stored (event : NormalizedEvent) : Store.DemoExecutionEvent where
  eventKey := event.eventKey
  payloadHash := event.payloadHash
  executionType := event.payload.executionType
  clientOrderId := event.payload.clientOrderId
  brokerOrderId := event.payload.brokerOrderId
  brokerPositionId := event.payload.brokerPositionId
  brokerFillId := event.payload.brokerFillId
  brokerOrderType := event.payload.brokerOrderType.map (·.num.toNat)
  closingOrder := event.payload.closingOrder
  order := event.payload.order
  position := event.payload.position
  fill := event.payload.fill
  closeDetail := event.payload.closeDetail.map CloseDetail.stored
  occurredAt := event.payload.occurredAt
  receivedAt := event.receivedAt

section

variable (P : Platform EventPayload) (options : DemoExecutionNormalizerOptions)
  (execution : BrokerExecution)

/-- The client id of an order of this strategy, or that the execution is not one. -/
def strategyOrder : Except String (Option (Option String)) := do
  assertSymbol execution.order options.symbolId
  assertSymbol execution.position options.symbolId
  match execution.deal with
  | none => pure ()
  | some deal =>
    require ((← stringField deal "symbolId") = options.symbolId) "DEMO_EXECUTION_SYMBOL_MISMATCH"
  let clientOrderId ← match execution.order with
    | none => pure none
    | some order => optionalStringField order "clientOrderId"
  let dealLabel ← match execution.deal with
    | none => pure ""
    | some deal => (·.getD "") <$> optionalStringField deal "label"
  let owned ←
    if clientOrderId.any (·.startsWith "cas-") then
      pure true
    else if (← label execution.order).startsWith options.strategyLabelPrefix then
      pure true
    else if (← label execution.position).startsWith options.strategyLabelPrefix then
      pure true
    else
      pure (dealLabel.startsWith options.strategyLabelPrefix)
  return if owned then some clientOrderId else none

/-- The parts that an execution of its type must have. -/
def assertParts (clientOrderId : Option String) : Except String Unit := do
  require (execution.executionType ∈ [2, 3, 4, 5, 6, 7, 8, 11] → execution.order.isSome)
    "DEMO_EXECUTION_ORDER_MISSING"
  require (execution.executionType ∈ [3, 11] → execution.deal.isSome)
    "DEMO_EXECUTION_DEAL_MISSING"
  require (execution.executionType ∈ [3, 11] → clientOrderId.any (·.startsWith "cas-") →
    execution.position.isSome) "DEMO_EXECUTION_POSITION_MISSING"

def brokerOrderType : Except String (Option Decimal) := do
  match execution.order with
  | none => return none
  | some order =>
    let type ← optionalNumberField P order "orderType"
    require (type.all fun type => isSafe type ∧ 1 ≤ type ∧ type ≤ 6) "CTRADER_ORDER_TYPE_INVALID"
    return type

def closingOrder : Except String Bool :=
  match execution.order with
  | none => .ok false
  | some order => (·.getD false) <$> optionalBooleanField order "closingOrder"

/-- The close detail of the deal, with the entry price and the close time that it gives a closed
    position without a price of its own. -/
def terminalDetail :
    Except String (Option CloseDetail × Option Decimal × Option ℕ) := do
  match execution.deal with
  | none => return (none, none, none)
  | some deal =>
    match ← normalizeCloseDetail P deal with
    | none => return (none, none, none)
    | some detail =>
      let _ ← priceField P deal "executionPrice" true
      if execution.position.isSome ∧ execution.executionType ∈ [3, 11] then
        let closeTime ← isoTimestamp (← numberField P deal "executionTimestamp")
          "CTRADER_DEAL_TIMESTAMP_INVALID"
        return (some detail, detail.entryPrice, some closeTime)
      else
        return (some detail, detail.entryPrice, none)

/-- The position of a fill; that of any other execution is only its context. -/
def normalizedPosition (receivedAt : ℕ) (terminalEntryPrice : Option Decimal)
    (terminalCloseTime : Option ℕ) : Except String (Option DemoExecutionPosition) :=
  match execution.position with
  | none => .ok none
  | some position =>
    if execution.executionType ∈ [3, 11] then
      some <$> normalizePosition P position receivedAt terminalEntryPrice terminalCloseTime
    else .ok none

def normalizedOrder (receivedAt : ℕ) : Except String (Option GatewayOrder) :=
  match execution.order with
  | none => .ok none
  | some order => do
    let normalized ← normalizeOrder P order receivedAt execution.errorCode
    assertExecutionOrderState execution.executionType normalized.state
    return some normalized

def brokerOrderId (order : Option GatewayOrder) : Except String (Option String) :=
  match order, execution.deal with
  | some order, _ => .ok order.brokerOrderId
  | none, some deal => some <$> stringField deal "orderId"
  | none, none => .ok none

def contextualBrokerPositionId : Except String (Option String) :=
  match execution.position with
  | none => .ok none
  | some position => some <$> stringField position "positionId"

def brokerPositionId (position : Option DemoExecutionPosition) (contextual : Option String) :
    Except String (Option String) :=
  match position, execution.deal with
  | some position, _ => .ok (some position.brokerPositionId)
  | none, some deal => some <$> stringField deal "positionId"
  | none, none => .ok contextual

/-- A closing order is one of the closed position and on its other side. -/
def assertClosing (closing : Bool) (closeDetail : Option CloseDetail)
    (position : Option DemoExecutionPosition) (positionId : Option String) :
    Except String Unit :=
  match execution.order, position with
  | some order, some position =>
    if closing ∧ closeDetail.isSome then do
      let declared ← optionalStringField order "positionId"
      require (declared.all (some · = positionId)) "DEMO_EXECUTION_CLOSING_POSITION_MISMATCH"
      require ((← side P (← tradeData order)) ≠ position.side)
        "DEMO_EXECUTION_CLOSING_SIDE_MISMATCH"
    else .ok ()
  | _, _ => .ok ()

def dealParts (orderId positionId : Option String) (closeDetail : Option CloseDetail) :
    Except String DealParts :=
  match execution.deal with
  | none => .ok {}
  | some deal => normalizeDeal P deal execution.executionType orderId positionId closeDetail

/-- The key of an event: that of its deal, or its hash. -/
def eventKey (parts : DealParts) (payloadHash : String) : String :=
  match parts.brokerDealId, parts.brokerFillId with
  | none, _ => "event:" ++ payloadHash
  | some dealId, none => "deal-attempt:" ++ dealId
  | some dealId, some _ => "deal:" ++ dealId

def receivedTime : Except String ℕ :=
  match execution.receivedAt with
  | some receivedAt => .ok receivedAt
  | none => .error "CTRADER_EXECUTION_RECEIVED_AT_INVALID"

/-- `normalizeDemoExecution` of an execution of this strategy. -/
def normalizeOwned (receivedAt : ℕ) (clientOrderId : Option String) :
    Except String NormalizedEvent := do
  assertParts execution clientOrderId
  let order ← normalizedOrder P execution receivedAt
  let orderType ← brokerOrderType P execution
  let closing ← closingOrder execution
  let (closeDetail, terminalEntryPrice, terminalCloseTime) ← terminalDetail P execution
  let position ← normalizedPosition P execution receivedAt terminalEntryPrice terminalCloseTime
  let contextual ← contextualBrokerPositionId execution
  let orderId ← brokerOrderId execution order
  let positionId ← brokerPositionId execution position contextual
  assertClosing P execution closing closeDetail position positionId
  let parts ← dealParts P execution orderId positionId closeDetail
  let occurredAt := (parts.dealOccurredAt.or ((order.bind (·.updatedAt)).or
    (position.map (·.updatedAt)))).getD receivedAt
  let payload : EventPayload := {
    executionType := execution.executionType
    clientOrderId := clientOrderId
    brokerOrderId := orderId
    brokerPositionId := positionId
    brokerFillId := parts.brokerFillId
    brokerOrderType := orderType
    closingOrder := closing
    order := order
    position := position
    fill := parts.fill
    closeDetail := closeDetail
    occurredAt := occurredAt
    errorCode := execution.errorCode }
  return ⟨payload, eventKey parts (P.hash payload), P.hash payload, receivedAt⟩

def normalizeDemoExecution : Except String (Option NormalizedEvent) := do
  let receivedAt ← receivedTime execution
  match ← strategyOrder options execution with
  | none => return none
  | some clientOrderId => some <$> normalizeOwned P execution receivedAt clientOrderId

end

/-! ### The time of receipt -/

/-- The broker says when the entity was updated. -/
def isTimed (entity : RawRecord) : Bool := ¬ isAbsent entity "utcLastUpdateTimestamp"

section

variable {P : Platform EventPayload} {options : DemoExecutionNormalizerOptions}
  {execution : BrokerExecution}

theorem updatedAt_isSome {entity : RawRecord} {value : Option Decimal} {updatedAt : Option ℕ}
    {reason : String} (hvalue : optionalNumberField P entity "utcLastUpdateTimestamp" = .ok value)
    (hupdated : optionalTimestamp value reason = .ok updatedAt) :
    updatedAt.isSome = isTimed entity := by
  rw [optionalNumberField] at hvalue
  split at hvalue
  · next habsent =>
    cases hvalue
    cases hupdated
    simp [isTimed, habsent]
  · next hpresent =>
    cases hnumber : numberField P entity "utcLastUpdateTimestamp" with
    | error e =>
      rw [hnumber] at hvalue
      cases hvalue
    | ok n =>
      rw [hnumber] at hvalue
      cases hvalue
      cases htime : isoTimestamp n reason with
      | error e =>
        rw [optionalTimestamp, htime] at hupdated
        cases hupdated
      | ok time =>
        rw [optionalTimestamp, htime] at hupdated
        cases hupdated
        simp [isTimed, hpresent]

/-- The order with another time of receipt. -/
def retimeOrder (order : RawRecord) (receivedAt : ℕ) (normalized : GatewayOrder) : GatewayOrder :=
  if isTimed order then normalized else { normalized with updatedAt := some receivedAt }

theorem normalizeOrder_received {order : RawRecord} {t : ℕ} {errorCode : Option String}
    {normalized : GatewayOrder} (h : normalizeOrder P order t errorCode = .ok normalized) (t' : ℕ) :
    normalizeOrder P order t' errorCode = .ok (retimeOrder order t' normalized) ∧
      (isTimed order = false → normalized.updatedAt = some t) := by
  simp only [normalizeOrder, bind_ok, pure_ok] at h ⊢
  obtain ⟨value, hvalue, updatedAt, hupdated, clientOrderId, hclient, brokerOrderId, hbroker, state,
    hstate, filledVolume, hfilled, rfl⟩ := h
  have hsome := updatedAt_isSome hvalue hupdated
  cases updatedAt with
  | none =>
    have htimed : isTimed order = false := hsome.symm
    refine ⟨⟨_, hvalue, _, hupdated, _, hclient, _, hbroker, _, hstate, _, hfilled, ?_⟩,
      fun _ => rfl⟩
    rw [retimeOrder, htimed]
    rfl
  | some time =>
    have htimed : isTimed order = true := hsome.symm
    refine ⟨⟨_, hvalue, _, hupdated, _, hclient, _, hbroker, _, hstate, _, hfilled, ?_⟩,
      fun huntimed => ?_⟩
    · rw [retimeOrder, htimed]
      rfl
    · rw [htimed] at huntimed
      cases huntimed

/-- The position with another time of receipt. -/
def retimePosition (position : RawRecord) (receivedAt : ℕ) (normalized : DemoExecutionPosition) :
    DemoExecutionPosition :=
  if isTimed position then normalized else { normalized with updatedAt := receivedAt }

theorem normalizePosition_received {position : RawRecord} {t : ℕ} {price : Option Decimal}
    {closeTime : Option ℕ} {normalized : DemoExecutionPosition}
    (h : normalizePosition P position t price closeTime = .ok normalized) (t' : ℕ) :
    normalizePosition P position t' price closeTime =
      .ok (retimePosition position t' normalized) ∧
      (isTimed position = false → normalized.updatedAt = t) := by
  simp only [normalizePosition, bind_ok, pure_ok] at h ⊢
  obtain ⟨data, hdata, status, hstatus, value, hvalue, updatedAt, hupdated, volume, hvolume, _,
    hvalid, brokerPositionId, hbroker, tradeSide, hside, entryPrice, hentry, stopLoss, hstop,
    takeProfit, htarget, opened, hopened, openedAt, hopenedAt, closed, hclosed, closedAt, hclosedAt,
    rfl⟩ := h
  have hsome := updatedAt_isSome hvalue hupdated
  cases updatedAt with
  | none =>
    have htimed : isTimed position = false := hsome.symm
    refine ⟨⟨_, hdata, _, hstatus, _, hvalue, _, hupdated, _, hvolume, _, hvalid, _, hbroker, _,
      hside, _, hentry, _, hstop, _, htarget, _, hopened, _, hopenedAt, _, hclosed, _, hclosedAt,
      ?_⟩, fun _ => rfl⟩
    rw [retimePosition, htimed]
    rfl
  | some time =>
    have htimed : isTimed position = true := hsome.symm
    refine ⟨⟨_, hdata, _, hstatus, _, hvalue, _, hupdated, _, hvolume, _, hvalid, _, hbroker, _,
      hside, _, hentry, _, hstop, _, htarget, _, hopened, _, hopenedAt, _, hclosed, _, hclosedAt,
      ?_⟩, fun huntimed => ?_⟩
    · rw [retimePosition, htimed]
      rfl
    · rw [htimed] at huntimed
      cases huntimed

namespace BrokerExecution

variable (e : BrokerExecution)

/-- The execution as it is received at a time. -/
def receivedAtTime (t : ℕ) : BrokerExecution := { e with receivedAt := some t }

/-- The position that is normalized: only a fill has one. -/
def filledPosition : Option RawRecord := if e.executionType ∈ [3, 11] then e.position else none

/-- The broker gives every time of the event: that of the order, that of the position of a fill, and
    one for the event. -/
def Timed : Prop :=
  e.order.all isTimed ∧ e.filledPosition.all isTimed ∧ (e.order.isSome ∨ e.deal.isSome)

end BrokerExecution

theorem normalizedOrder_received {t : ℕ} {order : Option GatewayOrder}
    (h : normalizedOrder P execution t = .ok order) (t' : ℕ) :
    ∃ order', normalizedOrder P execution t' = .ok order' ∧
      order'.map (·.brokerOrderId) = order.map (·.brokerOrderId) ∧
      (execution.order.isSome → (order.bind (·.updatedAt)).isSome) ∧
      (execution.order = none → order = none) ∧
      (execution.order.all isTimed → order' = order) ∧
      (execution.order.all isTimed = false →
        order.bind (·.updatedAt) = some t ∧ order'.bind (·.updatedAt) = some t') := by
  rw [normalizedOrder] at h ⊢
  cases hraw : execution.order with
  | none =>
    rw [hraw] at h
    cases h
    exact ⟨none, rfl, rfl, by simp, by simp, by simp, by simp⟩
  | some raw =>
    rw [hraw] at h
    simp only [bind_ok, pure_ok] at h ⊢
    obtain ⟨normalized, hnormalized, _, hstate, rfl⟩ := h
    obtain ⟨hretimed, huntimed⟩ := normalizeOrder_received hnormalized t'
    have hupdated : normalized.updatedAt.isSome := by
      simp only [normalizeOrder, bind_ok, pure_ok] at hnormalized
      obtain ⟨_, -, _, -, _, -, _, -, _, -, _, -, rfl⟩ := hnormalized
      rfl
    refine ⟨some (retimeOrder raw t' normalized), ⟨_, hretimed, (), ?_, rfl⟩, ?_, fun _ => hupdated,
      (fun hnone => by cases hnone), fun htimed => ?_, fun hall => ?_⟩
    · rw [retimeOrder]
      split <;> exact hstate
    · rw [retimeOrder]
      split <;> rfl
    · rw [Option.all_some] at htimed
      rw [retimeOrder, htimed]
      rfl
    · rw [Option.all_some] at hall
      refine ⟨huntimed hall, ?_⟩
      rw [retimeOrder, hall]
      rfl

theorem normalizedPosition_received {t : ℕ} {price : Option Decimal} {closeTime : Option ℕ}
    {position : Option DemoExecutionPosition}
    (h : normalizedPosition P execution t price closeTime = .ok position) (t' : ℕ) :
    ∃ position', normalizedPosition P execution t' price closeTime = .ok position' ∧
      position'.map (·.brokerPositionId) = position.map (·.brokerPositionId) ∧
      position'.map (·.side) = position.map (·.side) ∧
      (execution.filledPosition = none → position = none) ∧
      (execution.filledPosition.all isTimed → position' = position) ∧
      (execution.filledPosition.all isTimed = false →
        position.map (·.updatedAt) = some t ∧ position'.map (·.updatedAt) = some t') := by
  rw [normalizedPosition] at h ⊢
  rw [BrokerExecution.filledPosition]
  cases hraw : execution.position with
  | none =>
    rw [hraw] at h
    cases h
    exact ⟨none, rfl, rfl, rfl, by simp, by simp, by simp⟩
  | some raw =>
    rw [hraw] at h
    simp only at h ⊢
    by_cases hfill : execution.executionType ∈ [3, 11]
    · rw [if_pos hfill] at h ⊢
      rw [if_pos hfill]
      cases hnormalized : normalizePosition P raw t price closeTime with
      | error reason =>
        rw [hnormalized] at h
        cases h
      | ok normalized =>
        rw [hnormalized] at h
        cases h
        obtain ⟨hretimed, huntimed⟩ := normalizePosition_received hnormalized t'
        refine ⟨some (retimePosition raw t' normalized), by rw [hretimed]; rfl, ?_, ?_, nofun,
          fun htimed => ?_, fun hall => ?_⟩
        · rw [retimePosition]
          split <;> rfl
        · rw [retimePosition]
          split <;> rfl
        · rw [Option.all_some] at htimed
          rw [retimePosition, htimed]
          rfl
        · rw [Option.all_some] at hall
          refine ⟨congrArg some (huntimed hall), ?_⟩
          rw [retimePosition, hall]
          rfl
    · rw [if_neg hfill] at h ⊢
      rw [if_neg hfill]
      cases h
      exact ⟨none, rfl, rfl, rfl, by simp, by simp, by simp⟩

/-- What comes after the order and the position reads no time of theirs. -/
theorem brokerOrderId_congr {order order' : Option GatewayOrder}
    (h : order'.map (·.brokerOrderId) = order.map (·.brokerOrderId)) :
    brokerOrderId execution order' = brokerOrderId execution order := by
  cases order <;> cases order' <;> simp_all [brokerOrderId]

theorem brokerPositionId_congr {position position' : Option DemoExecutionPosition}
    {contextual : Option String}
    (h : position'.map (·.brokerPositionId) = position.map (·.brokerPositionId)) :
    brokerPositionId execution position' contextual =
      brokerPositionId execution position contextual := by
  cases position <;> cases position' <;> simp_all [brokerPositionId]

theorem assertClosing_congr {position position' : Option DemoExecutionPosition} {closing : Bool}
    {closeDetail : Option CloseDetail} {positionId : Option String}
    (h : position'.map (·.side) = position.map (·.side)) :
    assertClosing P execution closing closeDetail position' positionId =
      assertClosing P execution closing closeDetail position positionId := by
  cases position with
  | none =>
    rw [Option.map_none, Option.map_eq_none_iff] at h
    rw [h]
  | some p =>
    obtain ⟨p', rfl, hside⟩ := Option.map_eq_some_iff.mp h
    cases hraw : execution.order with
    | none => simp only [assertClosing, hraw]
    | some raw => simp only [assertClosing, hraw, hside]

theorem assertParts_deal {clientOrderId : Option String} {parts : Unit}
    (h : assertParts execution clientOrderId = .ok parts)
    (hfill : execution.executionType ∈ [3, 11]) : execution.deal.isSome := by
  simp only [assertParts, bind_ok, require_ok] at h
  obtain ⟨_, -, _, hdeal, -⟩ := h
  exact hdeal hfill

theorem dealParts_occurredAt {orderId positionId : Option String}
    {closeDetail : Option CloseDetail} {parts : DealParts}
    (h : dealParts P execution orderId positionId closeDetail = .ok parts) :
    parts.dealOccurredAt.isSome = execution.deal.isSome := by
  rw [dealParts] at h
  cases hdeal : execution.deal with
  | none =>
    rw [hdeal] at h
    cases h
    rfl
  | some deal =>
    rw [hdeal] at h
    simp only [normalizeDeal, bind_ok] at h
    obtain ⟨_, -, _, -, _, -, _, -, _, -, _, -, _, -, _, -, _, -, _, -, _, -, _, -, _, -, h⟩ := h
    split at h
    · simp only [bind_ok, pure_ok] at h
      obtain ⟨_, -, _, -, _, -, rfl⟩ := h
      rfl
    · simp only [bind_ok, pure_ok] at h
      obtain ⟨_, -, rfl⟩ := h
      rfl

theorem normalizeOwned_received {t t' : ℕ} {clientOrderId : Option String}
    {event : NormalizedEvent} (hne : t ≠ t')
    (h : normalizeOwned P execution t clientOrderId = .ok event) :
    ∃ event', normalizeOwned P execution t' clientOrderId = .ok event' ∧
      ((P.hash event'.payload = P.hash event.payload → event'.payload = event.payload) →
        (event'.eventKey = event.eventKey ∧ event'.payloadHash = event.payloadHash ↔
          execution.Timed)) := by
  simp only [normalizeOwned, bind_ok, pure_ok] at h ⊢
  obtain ⟨_, hparts, order, horder, orderType, horderType, closing, hclosing, terminal, hterminal,
    position, hposition, contextual, hcontextual, orderId, horderId, positionId, hpositionId, _,
    hassert, parts, hdeal, rfl⟩ := h
  obtain ⟨order', horder', hid, hupdated, hnoOrder, horderTimed, horderUntimed⟩ :=
    normalizedOrder_received horder t'
  obtain ⟨position', hposition', hpositionEq, hside, hnoPosition, hpositionTimed,
    hpositionUntimed⟩ := normalizedPosition_received hposition t'
  rw [← brokerOrderId_congr hid] at horderId
  rw [← brokerPositionId_congr hpositionEq] at hpositionId
  rw [← assertClosing_congr hside] at hassert
  refine ⟨_, ⟨(), hparts, order', horder', _, horderType, _, hclosing, _, hterminal, position',
    hposition', _, hcontextual, _, horderId, _, hpositionId, (), hassert, _, hdeal, rfl⟩,
    fun hhash => ?_⟩
  have hoccurred := dealParts_occurredAt hdeal
  constructor
  · rintro ⟨-, hsame⟩
    have hpayload := hhash hsame
    have horderEq : order' = order := congrArg EventPayload.order hpayload
    have hpositionSame : position' = position := congrArg EventPayload.position hpayload
    have htime := congrArg EventPayload.occurredAt hpayload
    refine ⟨?_, ?_, ?_⟩
    · by_contra huntimed
      obtain ⟨hat, hat'⟩ := horderUntimed (Bool.eq_false_iff.mpr huntimed)
      rw [horderEq, hat] at hat'
      exact hne (Option.some.inj hat')
    · by_contra huntimed
      obtain ⟨hat, hat'⟩ := hpositionUntimed (Bool.eq_false_iff.mpr huntimed)
      rw [hpositionSame, hat] at hat'
      exact hne (Option.some.inj hat')
    · by_contra hnone
      rw [not_or, Option.not_isSome_iff_eq_none, Option.not_isSome_iff_eq_none] at hnone
      have hnoDeal : parts.dealOccurredAt = none := by
        rw [hnone.2] at hoccurred
        exact Option.isSome_eq_false_iff.mp hoccurred |> Option.isNone_iff_eq_none.mp
      have hunfilled : execution.filledPosition = none := by
        rw [BrokerExecution.filledPosition, if_neg]
        intro hfill
        have hdealt := assertParts_deal hparts hfill
        rw [hnone.2] at hdealt
        cases hdealt
      simp only [hpositionSame, horderEq, hnoOrder hnone.1, hnoPosition hunfilled, hnoDeal,
        Option.bind_none, Option.map_none, Option.or_none, Option.getD_none] at htime
      exact hne htime.symm
  · rintro ⟨htimedOrder, htimedPosition, hsome⟩
    rw [horderTimed htimedOrder, hpositionTimed htimedPosition]
    have htime : (parts.dealOccurredAt.or ((order.bind (·.updatedAt)).or
        (position.map (·.updatedAt)))).isSome := by
      rcases hsome with horderSome | hdealSome
      · simp [hupdated horderSome]
      · simp [hoccurred, hdealSome]
    obtain ⟨time, htime⟩ := Option.isSome_iff_exists.mp htime
    simp only [htime, Option.getD_some, and_self]

/-- A second delivery has the same key and the same hash exactly if the broker gives every time of
    the event; the hash is only assumed to tell the two payloads apart. -/
theorem redelivered_alike_iff {e : BrokerExecution} {t t' : ℕ} {event : NormalizedEvent}
    (hne : t ≠ t')
    (h : normalizeDemoExecution P options (e.receivedAtTime t) = .ok (some event)) :
    ∃ event', normalizeDemoExecution P options (e.receivedAtTime t') = .ok (some event') ∧
      ((P.hash event'.payload = P.hash event.payload → event'.payload = event.payload) →
        (event'.eventKey = event.eventKey ∧ event'.payloadHash = event.payloadHash ↔ e.Timed)) := by
  simp only [normalizeDemoExecution, bind_ok] at h
  obtain ⟨received, hreceived, owned, howned, h⟩ := h
  cases hreceived
  cases owned with
  | none =>
    rw [pure_ok] at h
    cases h
  | some clientOrderId =>
    obtain ⟨made, hmade, hevent⟩ := map_ok.mp h
    cases hevent
    obtain ⟨event', hevent', hiff⟩ := normalizeOwned_received hne hmade
    have hsecond : normalizeOwned P (e.receivedAtTime t') t' clientOrderId = .ok event' := hevent'
    have howned' : strategyOrder options (e.receivedAtTime t') = .ok (some clientOrderId) := howned
    refine ⟨event', ?_, hiff⟩
    simp only [normalizeDemoExecution, bind_ok]
    exact ⟨t', rfl, _, howned', map_ok.mpr ⟨event', hsecond, rfl⟩⟩

end

namespace Redelivered

/-- A number of digits. -/
def wholeNumber (text : String) : Option Decimal :=
  if text ≠ "" ∧ text.toList.all Char.isDigit then
    some (Nat.ofDigits 10 (text.toList.reverse.map fun c => c.toNat - '0'.toNat) : ℕ)
  else none

/-- Texts of digits as numbers, and a hash that tells apart payloads of different times. -/
def platform : Platform EventPayload where
  number := wholeNumber
  decimal := wholeNumber
  hash payload := s!"{payload.executionType}:{payload.occurredAt}:" ++
    s!"{(payload.order.bind (·.updatedAt)).getD 0}:{(payload.position.map (·.updatedAt)).getD 0}"

def options : DemoExecutionNormalizerOptions := ⟨"41", "ctrader-ai-scalper"⟩

def trade : Raw :=
  .record [("symbolId", .text "41"), ("volume", .number 1000), ("tradeSide", .number 1)]

def position : RawRecord :=
  [("positionId", .text "9"), ("positionStatus", .number 1), ("price", .number 10),
    ("utcLastUpdateTimestamp", .number 5), ("tradeData", trade)]

def deal : RawRecord :=
  [("dealId", .text "3"), ("orderId", .text "1"), ("positionId", .text "9"),
    ("symbolId", .text "41"), ("dealStatus", .number 2), ("executionTimestamp", .number 5),
    ("filledVolume", .number 1000), ("executionPrice", .number 10)]

/-- The fill of an order that has the given broker time. -/
def fill (updatedAt : Raw) : BrokerExecution where
  executionType := 3
  order := some [("orderId", .text "1"), ("clientOrderId", .text "cas-b"),
    ("executedVolume", .number 1000), ("orderStatus", .number 2),
    ("utcLastUpdateTimestamp", updatedAt), ("tradeData", trade)]
  position := some position
  deal := some deal
  errorCode := none
  receivedAt := none

/-- The event of a fill whose order was updated at the first time, received at the second. -/
def event (updatedAt receivedAt : ℕ) : NormalizedEvent where
  payload := {
    executionType := 3
    clientOrderId := some "cas-b"
    brokerOrderId := some "1"
    brokerPositionId := some "9"
    brokerFillId := some "3"
    brokerOrderType := none
    closingOrder := false
    order := some ⟨"cas-b", some "1", .filled, 1000, some updatedAt, none⟩
    position := some ⟨"9", .buy, .opened, 1000, some 10, none, none, none, none, 5⟩
    fill := some ⟨"3", "1", "9", 10, 1000, 0, 5⟩
    closeDetail := none
    occurredAt := 5
    errorCode := none }
  eventKey := "deal:3"
  payloadHash := s!"3:5:{updatedAt}:5"
  receivedAt

end Redelivered

open Redelivered in
/-- A fill whose order has a time is the same event at both deliveries. -/
theorem redelivered_alike_gold :
    ∃ second, normalizeDemoExecution platform options
        ((fill (.number 5)).receivedAtTime 2000) = .ok (some second) ∧
      ((platform.hash second.payload = platform.hash (event 5 1000).payload →
          second.payload = (event 5 1000).payload) →
        (second.eventKey = "deal:3" ∧ second.payloadHash = "3:5:5:5" ↔
          (fill (.number 5)).Timed)) := by
  have hfirst : normalizeDemoExecution platform options ((fill (.number 5)).receivedAtTime 1000) =
      .ok (some (event 5 1000)) := by
    decide +kernel
  exact redelivered_alike_iff (by decide) hfirst

open Redelivered in
/-- A fill whose order has no time keeps its key and changes its hash, and the store takes its second
    delivery for a conflicting event. -/
theorem untimed_fill_conflicts :
    normalizeDemoExecution platform options ((fill .null).receivedAtTime 1000) =
      .ok (some (event 1000 1000)) ∧
    normalizeDemoExecution platform options ((fill .null).receivedAtTime 2000) =
      .ok (some (event 2000 2000)) ∧
    (event 2000 2000).payloadHash ≠ (event 1000 1000).payloadHash ∧
    (Store.deliverAll Store.Sample.options Store.Sample.store
        [⟨(event 1000 1000).stored, .brokerCallback, none⟩,
          ⟨(event 2000 2000).stored, .brokerCallback, none⟩]).events.map (·.reasonCodes) =
      [["DEMO_BROKER_EVENT_KEY_CONFLICT"]] := by
  decide +kernel

end ScalpingBot.Execution
