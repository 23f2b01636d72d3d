import ScalpingBot.Contracts

/-! Broker messages as the demo gateway reads them (apps/execution-service/src/demo-gateway.ts),
    with the field accessors of packages/ctrader-client/src/protocol.ts. -/

namespace ScalpingBot.Gateway

/-- A field of a broker record, as its accessor finds it. -/
inductive Field (α : Type) where
  | absent
  | invalid
  | value (a : α)

/-- `stringField`, `numberField`. -/
def Field.required {α : Type} (key : String) : Field α → Except String α
  | .value a => .ok a
  | _ => .error ("CTRADER_FIELD_INVALID:" ++ key)

/-- `optionalStringField`, `optionalNumberField`. -/
def Field.optional {α : Type} (key : String) : Field α → Except String (Option α)
  | .absent => .ok none
  | .invalid => .error ("CTRADER_FIELD_INVALID:" ++ key)
  | .value a => .ok (some a)

/-- The `tradeData` record of an order or a position. -/
structure TradeData where
  symbolId : Field String
  label : Field String := .absent
  volume : Field Decimal := .absent
  tradeSide : Field ℕ := .absent

/-- An order record; `tradeData` is `none` when it is no record. -/
structure BrokerOrder where
  orderId : Field String
  clientOrderId : Field String := .absent
  orderType : Field ℕ := .absent
  orderStatus : Field ℕ := .absent
  closingOrder : Bool := false
  executedVolume : Field Decimal := .absent
  executionPrice : Field Decimal := .absent
  timeInForce : Field ℕ := .absent
  expirationTimestamp : Field ℕ := .absent
  tradeData : Option TradeData

structure BrokerPosition where
  tradeData : Option TradeData
  positionId : Field String := .absent
  positionStatus : Field ℕ := .absent
  price : Field Decimal := .absent
  stopLoss : Field Decimal := .absent
  takeProfit : Field Decimal := .absent

/-- A value of a broker record that no accessor has looked at. -/
inductive RawValue where
  | text (s : String)
  | integer (n : ℤ)
  | other

structure BrokerDeal where
  executionPrice : Field Decimal := .absent
  dealId : RawValue := .other

structure BrokerExecution where
  executionType : ℕ
  order : Option BrokerOrder
  position : Option BrokerPosition := none
  deal : Option BrokerDeal := none
  errorCode : Option String := none
  receivedAt : ℕ := 0

structure RawReconciliation where
  receivedAt : ℕ := 0
  positions : List BrokerPosition
  orders : List BrokerOrder

def tradeDataOf (data : Option TradeData) : Except String TradeData :=
  match data with
  | some data => .ok data
  | none => .error "CTRADER_TRADE_DATA_INVALID"

/-- `orderTradeData`. -/
def orderTradeData (order : BrokerOrder) : Except String TradeData := tradeDataOf order.tradeData

/-- `isBrokerGeneratedClosingOrder`. -/
def isBrokerGeneratedClosingOrder (order : BrokerOrder) : Except String Bool :=
  if order.closingOrder then .ok true
  else do return (← order.orderType.optional "orderType") = some 4

/-- `stateFromOrder`. -/
def stateFromOrder (order : BrokerOrder) : Except String ExternalOrderState := do
  let executed ← decimal ((← order.executedVolume.optional "executedVolume").getD 0)
  let total ← decimal (← (← orderTradeData order).volume.required "volume")
  if 0 < executed ∧ executed < total then return .partiallyFilled
  match ← order.orderStatus.required "orderStatus" with
  | 1 => return .pending
  | 2 => return .filled
  | 3 => return .rejected
  | 4 => return .expired
  | 5 => return .cancelled
  | _ => return .unknown

/-- The price of a fill: the order's own, else that of its deal. -/
def executionPrice (e : BrokerExecution) (order : BrokerOrder) : Except String (Option Decimal) := do
  match ← order.executionPrice.optional "executionPrice" with
  | some price => return some price
  | none =>
    match e.deal with
    | none => return none
    | some deal => deal.executionPrice.optional "executionPrice"

/-- `validatePendingLifetimeAcknowledgement` for a GTD command. -/
def validateLifetimeAcknowledgement (c : PendingOrderCommand) (order : BrokerOrder) :
    Except String Unit := do
  match order.orderStatus with
  | .value 1 =>
    match order.timeInForce with
    | .value 1 =>
      if (← order.expirationTimestamp.optional "expirationTimestamp") = c.expiresAt then return ()
      else throw "CTRADER_GTD_ACKNOWLEDGEMENT_MISMATCH"
    | _ => throw "CTRADER_GTD_ACKNOWLEDGEMENT_MISMATCH"
  | _ => return ()

end ScalpingBot.Gateway
