import ScalpingBot.Contracts

/-! The market and account types of packages/contracts/src. Instants are milliseconds; a text that is
    no instant is `none`. -/

namespace ScalpingBot

inductive SymbolCommissionType where
  | usdPerMillionUsd | usdPerLot | percentageOfValue | quoteCcyPerLot
  deriving DecidableEq

/-- `minimumType`. -/
inductive CommissionMinimumType where | currency | quoteCurrency
  deriving DecidableEq

structure SymbolCommissionMetadata where
  type : SymbolCommissionType
  rate : Decimal
  minimum : Decimal
  minimumType : CommissionMinimumType
  minimumAsset : String
  pnlConversionFeeRate : Decimal
  deriving DecidableEq

structure SymbolMetadata where
  symbolId : String
  symbolName : String
  digits : ℕ
  pipPosition : ℕ
  pipSize : Decimal
  tickSize : Decimal
  tickValue : Decimal
  baseAsset : String
  quoteAsset : String
  accountAsset : String
  quoteToAccountConversionRate : Decimal
  contractSize : Decimal
  /-- base units represented by one broker-native volume integer -/
  volumeScale : Decimal
  minVolume : Decimal
  maxVolume : Decimal
  volumeStep : Decimal
  minStopDistance : Decimal
  commission : SymbolCommissionMetadata
  metadataTime : Option ℕ
  deriving DecidableEq

structure Quote where
  bid : Decimal
  ask : Decimal
  sourceTime : Option ℕ
  receivedAt : Option ℕ
  deriving DecidableEq

structure AccountState where
  reconciledAt : Option ℕ
  certain : Bool
  equity : Decimal
  balance : Decimal
  availableMargin : Decimal
  relevantPositionCount : ℕ
  relevantPendingOrderCount : ℕ
  hasPartialFill : Bool
  hasCancellationPending : Bool
  reasonCodes : List String
  deriving DecidableEq

def OrderSide.lower : OrderSide → String
  | .buy => "buy"
  | .sell => "sell"

def OrderSide.text : OrderSide → String
  | .buy => "BUY"
  | .sell => "SELL"

/-- The fields of `ModelOrderProposal` from which orders are made. -/
structure ModelOrderProposal where
  entryPrice : Decimal
  stopLoss : Decimal
  takeProfit : Decimal
  expiresAt : Option ℕ
  deriving DecidableEq

/-- The fields of `ModelResponse` from which orders are made. -/
structure ModelResponse where
  schemaVersion : String := "2.1"
  analysisId : String
  symbol : String
  buyStop : ModelOrderProposal
  sellStop : ModelOrderProposal
  deriving DecidableEq

def ModelResponse.proposal (response : ModelResponse) : OrderSide → ModelOrderProposal
  | .buy => response.buyStop
  | .sell => response.sellStop

end ScalpingBot
