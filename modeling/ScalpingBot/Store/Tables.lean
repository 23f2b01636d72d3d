import ScalpingBot.Store.Event

/-! The tables that the execution store reads and writes (src/migrations), as lists of rows. A row
    id stands for a uuid. The columns of `broker_execution_events` that repeat the event are read
    from its normalized payload. Uniqueness and range constraints of the schema are checked where
    a statement can violate them; a violation aborts the transaction. -/

namespace ScalpingBot.Store

/-- The states of `orders`. -/
inductive OrderState where
  | intent | submitting | pending | partiallyFilled | filled | cancelPending | cancelled | expired
  | rejected | unknown
  deriving DecidableEq

/-- FILLED, CANCELLED, EXPIRED and REJECTED. -/
def OrderState.terminal (s : OrderState) : Bool := s ∈ [.filled, .cancelled, .expired, .rejected]

/-- A broker state as the text written to `orders`. -/
def orderStateOf : ExternalOrderState → OrderState
  | .pending => .pending
  | .partiallyFilled => .partiallyFilled
  | .filled => .filled
  | .cancelled => .cancelled
  | .expired => .expired
  | .rejected => .rejected
  | .unknown => .unknown

inductive OrderGroupState where
  | intentRecorded | submitting | active | oneFilled | cancellingPeer | positionOpen
  | reconciliationRequired | closed | expired | failed
  deriving DecidableEq

inductive TradingMode where | backtest | paper | demo | shadow | live
  deriving DecidableEq

inductive MappingState where | mapped | unmatched | conflict
  deriving DecidableEq

/-- The fields of a parsed model payload that a trade copies; a field of a wrong type is `none`. -/
structure ParsedPayload where
  overall : Option ℕ
  setupTags : Option (List String)
  marketRegime : Option String
  deriving DecidableEq

/-- The latest model response of an analysis; `parsedPayload` is `none` when it is no object. -/
structure ModelResponse where
  model : String
  promptVersion : String
  schemaVersion : String
  parsedPayload : Option ParsedPayload
  deriving DecidableEq

/-- `analysis_runs`, with the strategy version and the latest model response joined. -/
structure AnalysisRun where
  accountId : String
  symbolId : String
  mode : TradingMode
  strategyVersion : String
  model : Option ModelResponse
  deriving DecidableEq

/-- `order_groups`, with its analysis run. -/
structure OrderGroupRow where
  id : ℕ
  analysis : AnalysisRun
  mode : TradingMode
  entrySide : Option OrderSide
  state : OrderGroupState
  cancellationReason : Option String := none
  updatedAt : ℕ
  deriving DecidableEq

structure OrderRow where
  id : ℕ
  accountId : String
  orderGroupId : ℕ
  clientOrderId : String
  brokerOrderId : Option String
  state : OrderState
  strategyOwned : Bool := true
  normalizedVolume : Decimal
  filledVolume : Decimal := 0
  brokerUpdatedAt : Option ℕ := none
  updatedAt : ℕ
  version : ℕ := 0
  deriving DecidableEq

structure PositionRow where
  id : ℕ
  accountId : String
  symbolId : String
  orderGroupId : Option ℕ
  brokerPositionId : Option String
  side : OrderSide
  state : PositionState
  strategyOwned : Bool
  volume : Decimal
  entryPrice : Option Decimal
  stopLoss : Option Decimal
  takeProfit : Option Decimal
  reconciliationVersion : ℕ := 0
  openedAt : Option ℕ
  closedAt : Option ℕ
  updatedAt : ℕ
  deriving DecidableEq

structure FillRow where
  orderId : Option ℕ
  positionId : Option ℕ
  brokerEventKey : String
  brokerFillId : String
  price : Decimal
  volume : Decimal
  commission : Decimal
  occurredAt : ℕ
  receivedAt : ℕ
  deriving DecidableEq

structure TradeRow where
  orderGroupId : ℕ
  positionId : Option ℕ
  direction : OrderSide
  setupTags : List String
  marketRegime : String
  confidenceBucket : String
  realizedPnl : Decimal
  fees : Decimal
  openedAt : ℕ
  closedAt : ℕ
  model : ModelResponse
  strategyVersion : String
  deriving DecidableEq

/-- `broker_execution_events`. -/
structure EventRow where
  id : ℕ
  accountId : String
  symbolId : String
  orderGroupId : Option ℕ
  orderId : Option ℕ
  positionId : Option ℕ
  mappingState : MappingState
  reasonCodes : List String
  normalizedPayload : DemoExecutionEvent
  resolvedAt : Option ℕ := none
  resolutionEventKey : Option String := none
  deriving DecidableEq

/-- `broker_execution_event_variants`. -/
structure VariantRow where
  eventId : ℕ
  payloadHash : String
  normalizedPayload : DemoExecutionEvent
  evidenceSource : DemoExecutionEvidenceSource
  originalMappingState : MappingState
  originalReasonCodes : List String
  originalResolvedAt : Option ℕ
  originalResolutionEventKey : Option String
  receivedAt : ℕ
  deriving DecidableEq

/-- `broker_acknowledgement_evidence`. -/
structure AcknowledgementRow where
  eventId : ℕ
  eventPayloadHash : String
  evidenceHash : String
  evidence : BrokerAcknowledgement
  receivedAt : ℕ
  deriving DecidableEq

/-- `position_close_deals`. -/
structure CloseDealRow where
  accountId : String
  symbolId : String
  positionId : ℕ
  brokerDealId : String
  brokerOrderId : String
  closedVolume : Decimal
  entryPrice : Decimal
  grossProfit : Decimal
  commission : Decimal
  swap : Decimal
  conversionFee : Decimal
  occurredAt : ℕ
  externalIntervention : Bool
  evidenceHash : String
  deriving DecidableEq

/-- `position_protection`, as far as a close is bound to it. -/
structure ProtectionRow where
  positionId : ℕ
  closeRequestedAt : Option ℕ
  closeVolume : Option Decimal
  brokerCloseOrderId : Option String
  deriving DecidableEq

structure Tables where
  orderGroups : List OrderGroupRow := []
  orders : List OrderRow := []
  positions : List PositionRow := []
  fills : List FillRow := []
  trades : List TradeRow := []
  events : List EventRow := []
  variants : List VariantRow := []
  acknowledgements : List AcknowledgementRow := []
  closeDeals : List CloseDealRow := []
  protections : List ProtectionRow := []
  /-- The next row id that no row has. -/
  nextId : ℕ := 0
  deriving DecidableEq

/-- `UPDATE … SET f WHERE p`. -/
def updateWhere {α : Type} (p : α → Bool) (f : α → α) (rows : List α) : List α :=
  rows.map fun r => if p r then f r else r

/-- `PostgresDemoExecutionStoreOptions`. -/
structure PostgresDemoExecutionStoreOptions where
  accountId : String
  symbolId : String

/-- The row of an event key: `broker_execution_events` is unique by account and key. -/
def Tables.event (t : Tables) (o : PostgresDemoExecutionStoreOptions) (key : String) :
    Option EventRow :=
  t.events.find? fun r => r.accountId = o.accountId ∧ r.normalizedPayload.eventKey = key

def Tables.orderGroup (t : Tables) (id : ℕ) : Option OrderGroupRow :=
  t.orderGroups.find? fun g => g.id = id

/-- The group of a position, when the join finds it. -/
def Tables.groupOf (t : Tables) (p : PositionRow) : Option OrderGroupRow :=
  p.orderGroupId.bind t.orderGroup

end ScalpingBot.Store
