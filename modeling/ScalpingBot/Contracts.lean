import ScalpingBot.Decimal

/-! The order types of packages/contracts/src that the execution service reads. Instants are
    milliseconds; a text that is no instant with an offset is `none`. -/

namespace ScalpingBot

inductive OrderSide where | buy | sell
  deriving DecidableEq

/-- `PendingExecutionOrderType`. -/
inductive PendingExecutionOrderType where | stop | stopLimit | limit
  deriving DecidableEq

inductive TradingMode where | replay | backtest | paper | demo | shadow | live
  deriving DecidableEq

inductive TimeInForce where | gtd | gtc
  deriving DecidableEq

/-- `ExternalOrderState`. -/
inductive ExternalOrderState where
  | pending | partiallyFilled | filled | cancelled | expired | rejected | unknown
  deriving DecidableEq

/-- The states listed as final wherever the source lists them. -/
def ExternalOrderState.terminal (s : ExternalOrderState) : Bool :=
  s ∈ [.filled, .cancelled, .expired, .rejected]

structure PendingOrderCommand where
  executionOrderType : Option PendingExecutionOrderType := none
  idempotencyKey : String
  analysisId : String
  orderGroupId : String
  clientOrderId : String
  symbol : String
  side : OrderSide
  volume : Decimal
  entryPrice : Decimal
  stopLoss : Decimal
  takeProfit : Decimal
  expiresAt : Option ℕ
  timeInForce : Option TimeInForce := none
  strategyLabel : String
  entryRangePoints : Option ℕ := none
  deriving DecidableEq

structure GatewayOrder where
  clientOrderId : String
  brokerOrderId : Option String
  state : ExternalOrderState
  filledVolume : Decimal
  updatedAt : Option ℕ
  reasonCode : Option String
  deriving DecidableEq

structure OcoPlacementResult where
  orderGroupId : String
  idempotentReplay : Bool
  orders : List GatewayOrder
  deriving DecidableEq

/-- `ReconciliationSnapshot`, as far as the maintenance of orders reads it. -/
structure ReconciliationSnapshot where
  certain : Bool
  orders : List GatewayOrder
  relevantPositionCount : ℕ
  deriving DecidableEq

/-- `pendingOrderType`: an omitted type is the historical stop-limit. -/
def pendingOrderType (c : PendingOrderCommand) : PendingExecutionOrderType :=
  c.executionOrderType.getD .stopLimit

/-- `brokerOrderTypeNumber`. -/
def brokerOrderTypeNumber : PendingExecutionOrderType → ℕ
  | .stop => 3
  | .limit => 2
  | .stopLimit => 6

/-- `orderTimeInForce`: an omitted lifetime is the historical GTD. -/
def orderTimeInForce (c : PendingOrderCommand) : TimeInForce := c.timeInForce.getD .gtd

/-- `validateSubmissionDeadline`. -/
def validateSubmissionDeadline (c : PendingOrderCommand) (now : ℕ) : Except String Unit :=
  match c.expiresAt with
  | some expiry =>
    if now < expiry then .ok () else .error "ORDER_SUBMISSION_EXPIRED_OR_INVALID"
  | none => .error "ORDER_SUBMISSION_EXPIRED_OR_INVALID"

/-- `MarketSessionStatus`, as far as the gateway reads it. -/
structure MarketSessionStatus where
  isOpen : Bool
  reasonCode : Option String

end ScalpingBot
