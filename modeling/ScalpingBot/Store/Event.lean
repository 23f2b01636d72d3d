import ScalpingBot.Contracts

/-! The normalized broker events of apps/execution-service/src/demo-execution.ts, as the execution
    store receives them, and the reasons that the store records with them. -/

namespace ScalpingBot.Store

structure DemoExecutionFill where
  brokerFillId : String
  brokerOrderId : String
  brokerPositionId : String
  price : Decimal
  volume : Decimal
  commission : Decimal
  occurredAt : ℕ
  deriving DecidableEq

structure DemoExecutionCloseDetail where
  entryPrice : Decimal
  grossProfit : Decimal
  swap : Decimal
  commission : Decimal
  pnlConversionFee : Decimal
  closedVolume : Option Decimal
  deriving DecidableEq

inductive PositionState where
  | opened | closing | closed | unknown | reconciliationPending
  deriving DecidableEq

structure DemoExecutionPosition where
  brokerPositionId : String
  side : OrderSide
  state : PositionState
  volume : Decimal
  entryPrice : Option Decimal
  stopLoss : Option Decimal
  takeProfit : Option Decimal
  openedAt : Option ℕ
  closedAt : Option ℕ
  updatedAt : ℕ
  deriving DecidableEq

/-- `DemoExecutionEvent`; the key and the hash cover everything but `receivedAt`. -/
structure DemoExecutionEvent where
  eventKey : String
  payloadHash : String
  executionType : ℕ
  clientOrderId : Option String
  brokerOrderId : Option String
  brokerPositionId : Option String
  brokerFillId : Option String
  brokerOrderType : Option ℕ
  closingOrder : Bool
  order : Option GatewayOrder
  position : Option DemoExecutionPosition
  fill : Option DemoExecutionFill
  closeDetail : Option DemoExecutionCloseDetail
  occurredAt : ℕ
  receivedAt : ℕ
  deriving DecidableEq

inductive DemoExecutionEvidenceSource where
  | originalJournal | brokerCallback | historyReconstruction | unspecified
  deriving DecidableEq

/-- `BrokerAcknowledgement`; `evidence` is its JSON text. -/
structure BrokerAcknowledgement where
  eventKey : String
  receivedAt : ℕ
  evidenceHash : String
  evidence : String
  deriving DecidableEq

structure DemoExecutionPersistenceResult where
  certain : Bool
  reasonCodes : List String
  deriving DecidableEq

namespace DemoExecutionEvent

variable (event : DemoExecutionEvent)

/-- `event.order?.state`. -/
def orderState : Option ExternalOrderState := event.order.map (·.state)

/-- `event.position?.state`. -/
def positionState : Option PositionState := event.position.map (·.state)

/-- The event reports a closed position together with its outcome. -/
def closesPosition : Bool := event.positionState = some .closed ∧ event.closeDetail.isSome

end DemoExecutionEvent

/-- `demoExecutionReasonCodes`. -/
def demoExecutionReasonCodes (event : DemoExecutionEvent) : List String :=
  (if event.executionType = 2 ∧ event.brokerOrderType = some 4 ∧ event.closingOrder ∧
    event.fill = none then ["DEMO_CLOSING_ORDER_AWAITING_DEAL"] else []) ++
  (if event.executionType = 4 then ["DEMO_ORDER_REPLACED_RECONCILIATION_REQUIRED"] else []) ++
  (if event.executionType = 8 then ["DEMO_CANCEL_REJECTED"] else []) ++
  (if event.orderState = some .partiallyFilled then
    ["DEMO_PARTIAL_FILL_RECONCILIATION_REQUIRED"] else []) ++
  (if event.orderState = some .unknown ∨ event.positionState = some .unknown then
    ["DEMO_EXECUTION_STATE_UNKNOWN"] else []) ++
  (if event.positionState = some .reconciliationPending then
    ["DEMO_POSITION_CREATED_RECONCILIATION_REQUIRED"] else []) ++
  (if event.positionState = some .closed ∧ event.closeDetail = none then
    ["DEMO_TRADE_OUTCOME_MISSING"] else []) ++
  (if event.positionState = some .closed ∧ event.closeDetail.any (·.closedVolume = none) then
    ["DEMO_TRADE_CLOSED_VOLUME_MISSING"] else []) ++
  (if event.closeDetail.isSome ∧ event.positionState ≠ some .closed then
    ["DEMO_PARTIAL_CLOSE_RECONCILIATION_REQUIRED"] else [])

end ScalpingBot.Store
