import Mathlib.Data.Finset.Card
import Mathlib.Data.Finset.Dedup
import Mathlib.Data.List.Sort
import ScalpingBot.Learning.Evidence
import ScalpingBot.Library.Checked
import ScalpingBot.Library.Cumulative
import ScalpingBot.Library.Dictionary

/-! `_reconstruct` of python/backtest/current_scalp.py: what the records of a setup say became of its
    order. Sums have a hundred digits there, more than a packet's numbers can use up, so they are
    exact here. -/

namespace ScalpingBot.CurrentScalp

open Learning

inductive Status where
  | unsupported | unknown | pending | stillOpen | partialOpen | closed | zeroFillTerminal
  deriving DecidableEq

inductive Reason where
  | versionOrCardinalityUnsupported
  | groupOrOrderStateNotKnownAtCutoff
  | orderVolumeInvalid
  | brokerEventIdentityDuplicateOrConflict
  | brokerEventNotKnownAtCutoff
  | terminalBrokerStateConflict
  | orderLifetimeMismatch
  | contextAvailabilityUnavailable
  | intentPrecedesProviderAvailability
  | contextIntentMismatch
  | brokerAcceptedOrderTypeInvalid
  | acceptanceOutsideIntentLifetime
  | originalAcceptanceUnavailable
  | acceptancePrecedesProvider
  | fillCoverageOrChronologyInvalid
  | fillVolumeMismatch
  | brokerUnresolved
  | terminalPrecedesAcceptance
  | zeroFillTerminalProofMissing
  | positionOrCloseIdentityIncomplete
  | positionEvidenceIncomplete
  | positionSideVolumeOrClockInvalid
  | closeVolumeOrChronologyInvalid
  | positionObservationPrecedesLedger
  | tradeClockOrDirectionInvalid
  | actualSignedCostReconciliationMismatch
  | closeProofIncomplete
  | openPositionRemainingVolumeMismatch
  deriving DecidableEq

structure Reconstruction where
  setupId : Identity
  status : Status
  reasons : List Reason
  recordedEntryFills : ℕ := 0
  filledVolume : Figure := 0
  providerAvailableAt : Option Instant := none
  brokerAcceptedAt : Option Instant := none
  recordedClosedNet : Option Figure := none
  signedFees : Option Figure := none
  nativeProtectionHistoryAvailable : Bool := false
  deriving DecidableEq

def trendRelease : String := "0.11.0-trend-retest.1-codex.1"

def current : List String :=
  ["0.9.0-cost-balanced.1-codex.1", "0.9.0-cost-balanced.1-codex.2", "0.10.0-demo-trials.1-codex.1"]

/-- The setup is of a release and a mode that the reconstruction knows. -/
def supportedMode (group : SetupObservation) : Prop :=
  (group.originRelease ∈ current ∨ group.originRelease = trendRelease) ∧ group.timeInForce = .gtd ∧
    (group.executionMode = "SINGLE_STOP_LIMIT" ∨
      group.originRelease = trendRelease ∧ group.executionMode = "SINGLE_LIMIT")

instance (group : SetupObservation) : Decidable (supportedMode group) :=
  inferInstanceAs (Decidable (_ ∧ _))

def expectedType (group : SetupObservation) : Learning.OrderType :=
  if group.executionMode = "SINGLE_LIMIT" then .limit else .stopLimit

/-- The reasons of the tests that hold. -/
def flagged (tests : List (Bool × Reason)) : List Reason :=
  tests.filterMap fun test => if test.1 then some test.2 else none

/-! ### The order and its context -/

/-- `position_clock`. -/
def positionClock (positionUpdates : Option (Identity → Option Instant))
    (p : ProtectionObservation) : Option Instant :=
  match positionUpdates with
  | none => p.observedAt
  | some updates => updates p.positionId

/-- `contexts.get(group.contextId)`. -/
def contextOf (packet : LearningEvidence) (group : SetupObservation) : Option ContextObservation :=
  group.contextId.bind fun id =>
    (Dictionary.values ContextObservation.id packet.contexts).find? (·.id = id)

/-- The context that the setup may come from, with its availability. -/
def availableContext (packet : LearningEvidence) (group : SetupObservation) :
    Option (ContextObservation × Instant) :=
  (contextOf packet group).bind fun c =>
    if c.originRelease ≠ group.originRelease ∨ c.clockStatus ≠ .causal then none
    else c.availableAt.map (c, ·)

/-- `value is None or Decimal(value) != Decimal(expected)` -/
def differs (value : Option Number) (expected : Number) : Bool :=
  value.all fun v => v.value ≠ expected.value

def contextReasons (packet : LearningEvidence) (group : SetupObservation) (order : OrderObservation) :
    List Reason :=
  match availableContext packet group with
  | none => [.contextAvailabilityUnavailable]
  | some (context, availableAt) => flagged [
      (group.createdAt < availableAt, .intentPrecedesProviderAvailability),
      (context.decision ≠ .of order.side || differs context.entryPrice order.entryPrice ||
          differs context.stopLoss order.stopLoss || differs context.takeProfit order.takeProfit ||
          some context.validUntil ≠ order.expiresAt, .contextIntentMismatch)]

def lifetimeMismatch (group : SetupObservation) (order : OrderObservation) : Bool :=
  order.orderType ≠ expectedType group || order.timeInForce ≠ .gtd ||
    order.expiresAt ≠ group.expiresAt || group.submissionValidUntil ≠ order.submissionValidUntil ||
    order.submissionValidUntil ≠ order.expiresAt

/-! ### The broker's events -/

def accepts (cutoff : Instant) (group : SetupObservation) (order : OrderObservation) :
    List BrokerObservation :=
  group.brokerEvents.filter fun e => e.about order ∧ e.executionType = 2 ∧ e.attested cutoff

/-- `row.brokerAcceptedAt` -/
def acceptedAt (cutoff : Instant) (group : SetupObservation) (order : OrderObservation) :
    Option Instant :=
  ((accepts cutoff group order).map (·.occurredAt)).min?

def acceptanceReasons (packet : LearningEvidence) (group : SetupObservation)
    (order : OrderObservation) : List Reason :=
  match acceptedAt packet.cutoff group order with
  | none => [.originalAcceptanceUnavailable]
  | some accepted => flagged [
      ((accepts packet.cutoff group order).any fun e =>
          e.orderType ≠ some (if expectedType group = .limit then 2 else 6),
        .brokerAcceptedOrderTypeInvalid),
      (accepted < group.createdAt || order.expiresAt.any (· ≤ accepted),
        .acceptanceOutsideIntentLifetime),
      ((availableContext packet group).any fun c => accepted < c.2, .acceptancePrecedesProvider)]

/-- An event that ends the order but not in the state that it has. -/
def terminalConflict (group : SetupObservation) (order : OrderObservation) : Bool :=
  group.brokerEvents.any fun e => e.about order ∧ e.executionType ∈ [5, 6, 7] ∧
    (e.executionType, order.state) ∉ terminalStates

def terminalPrecedes (cutoff : Instant) (group : SetupObservation) (order : OrderObservation) : Bool :=
  (acceptedAt cutoff group order).any fun accepted => group.brokerEvents.any fun e =>
    e.about order ∧ e.executionType ∈ [5, 6, 7] ∧ e.occurredAt < accepted

/-! ### The fills -/

/-- `fills.values()` -/
def fillsOf (cutoff : Instant) (group : SetupObservation) (order : OrderObservation) :
    List FillObservation :=
  Dictionary.values FillObservation.id <|
    group.fills.filter fun f => f.orderId = some order.id ∧ f.receivedAt ≤ cutoff

def fillsInvalid (cutoff : Instant) (group : SetupObservation) (order : OrderObservation) : Bool :=
  (fillsOf cutoff group order).length ≠ group.fills.length ||
    (fillsOf cutoff group order).any fun f =>
      f.clockStatus ≠ .causal ∨ f.volume.value ≤ 0 ∨ f.price.value ≤ 0 ∨
        (acceptedAt cutoff group order).any (f.occurredAt < ·)

/-- `volume` -/
def volumeOf (fills : List FillObservation) : Figure := (fills.map (·.volume.figure)).sum

/-- The row before the position is looked at. -/
def entryRow (packet : LearningEvidence) (group : SetupObservation) (order : OrderObservation) :
    Reconstruction :=
  let fills := fillsOf packet.cutoff group order
  let volume := (volumeOf fills).value
  { setupId := group.id
    status := .unknown
    reasons :=
      flagged [
        (packet.cutoff < group.updatedAt || packet.cutoff < order.updatedAt,
          .groupOrOrderStateNotKnownAtCutoff),
        (order.approvedVolume.value ≤ 0 || order.filledVolume.value < 0, .orderVolumeInvalid),
        (¬ (group.brokerEvents.map (·.id)).Nodup, .brokerEventIdentityDuplicateOrConflict),
        (group.brokerEvents.any fun e =>
            packet.cutoff < e.persistedAt ∨ e.resolvedAt.any (packet.cutoff < ·),
          .brokerEventNotKnownAtCutoff),
        (terminalConflict group order, .terminalBrokerStateConflict),
        (lifetimeMismatch group order, .orderLifetimeMismatch)] ++
      contextReasons packet group order ++ acceptanceReasons packet group order ++
      flagged [
        (fillsInvalid packet.cutoff group order, .fillCoverageOrChronologyInvalid),
        (volume ≠ order.filledVolume.value || order.approvedVolume.value < volume,
          .fillVolumeMismatch),
        (group.brokerEvents.any fun e =>
            e.resolvedAt = none ∧ (e.mappingState ≠ .mapped ∨ e.reasonCodes ≠ []),
          .brokerUnresolved),
        (terminalPrecedes packet.cutoff group order, .terminalPrecedesAcceptance)]
    recordedEntryFills := fills.length
    filledVolume := volumeOf fills
    providerAvailableAt := (availableContext packet group).map (·.2)
    brokerAcceptedAt := acceptedAt packet.cutoff group order
    nativeProtectionHistoryAvailable := group.protectionHistoryComplete &&
      group.protectionHistory.any fun h =>
        h.persistedAt ≤ packet.cutoff ∧ h.observedAt.any (· ≤ packet.cutoff) }

/-! ### The position -/

/-- `closes.values()` -/
def closesOf (cutoff : Instant) (group : SetupObservation) : List CloseObservation :=
  Dictionary.values CloseObservation.id <|
    group.closeDeals.filter fun d => d.recordedAt ≤ cutoff ∧ d.occurredAt ≤ cutoff

/-- `trades.values()` -/
def tradesOf (cutoff : Instant) (group : SetupObservation) : List TradeObservation :=
  Dictionary.values TradeObservation.id (group.closedTrades.filter fun t => t.closedAt ≤ cutoff)

/-- `available`, what had been filled into the position up to an instant. -/
def available (fills : List FillObservation) (position : Identity) (instant : Instant) :
    ℚ :=
  filledInto (fills.filter fun f => f.occurredAt ≤ instant) (some position)

/-- `chronology_invalid` -/
def chronologyInvalid (fills : List FillObservation) (closes : List CloseObservation) : Bool :=
  let positions := fills.map (·.positionId)
  (closes.any fun d =>
      d.closedVolume.value ≤ 0 ∨ some d.positionId ∉ positions ∨ d.recordedAt < d.occurredAt) ||
    Cumulative.overdrawn CloseObservation.positionId (·.closedVolume.value)
      (fun d => available fills d.positionId d.occurredAt) (fun _ => 0)
      (closes.insertionSort fun a b => a.occurredAt ≤ b.occurredAt)

/-- The last clock of the ledger of a position. -/
def lastClock (updated : Bool) (fills : List FillObservation) (closes : List CloseObservation)
    (position : Identity) : Option Instant :=
  (((fills.filter fun f => f.positionId = some position).map fun f =>
      if updated then f.occurredAt else f.receivedAt) ++
    (closes.filter fun d => d.positionId = position).map fun d =>
      if updated then d.occurredAt else d.recordedAt).max?

/-- `first_fill` -/
def firstFill (fills : List FillObservation) : Option Instant := (fills.map (·.occurredAt)).min?

/-- `closed_volume` -/
def closedVolume (closes : List CloseObservation) : ℚ := (closes.map (·.closedVolume.value)).sum

/-- `Decimal(d.commission) + Decimal(d.swap) + Decimal(d.conversionFee)` -/
def feesOf (d : CloseObservation) : Figure :=
  d.commission.figure + d.swap.figure + d.conversionFee.figure

/-- `Decimal(d.gross) + Decimal(d.commission) + Decimal(d.swap) + Decimal(d.conversionFee)` -/
def grossAndCostsOf (d : CloseObservation) : ℚ :=
  d.gross.value + d.commission.value + d.swap.value + d.conversionFee.value

/-- The positions of the fills are those that are held. -/
def samePositions (group : SetupObservation) (fills : List FillObservation) : Prop :=
  (fills.map (·.positionId)).toFinset =
    (group.currentProtection.map fun p => some p.positionId).toFinset

instance (group : SetupObservation) (fills : List FillObservation) :
    Decidable (samePositions group fills) := inferInstanceAs (Decidable (_ = _))

/-- The records prove that the position was closed. -/
def closeProof (group : SetupObservation) (fills : List FillObservation)
    (closes : List CloseObservation) (trades : List TradeObservation) : Bool :=
  group.state = "CLOSED" && trades.length = 1 &&
    (trades.all fun t =>
      ((closes.map (·.occurredAt)).max?.or (firstFill fills)).all (· ≤ t.closedAt)) &&
    closedVolume closes = (volumeOf fills).value &&
    ((fills.map (·.positionId)).all fun position =>
      position.all fun p => closedFrom closes p = filledInto fills p) &&
    samePositions group fills && group.currentProtection.all (·.positionState = "CLOSED")

/-- The position of the row says something else than what is left of its fills. -/
def remainderMismatch (fills : List FillObservation) (closes : List CloseObservation)
    (p : ProtectionObservation) : Bool :=
  p.positionState ≠ "OPEN" || p.volume.value ≤ 0 ||
    p.volume.value ≠ filledInto fills p.positionId - closedFrom closes p.positionId

/-- What `_reconstruct` sets when the position is settled. -/
structure Settled where
  status : Status
  recordedClosedNet : Option Figure := none
  signedFees : Option Figure := none
  deriving DecidableEq

/-- The last branches: closed, not proved closed, or open. -/
def classify (group : SetupObservation) (order : OrderObservation) (fills : List FillObservation)
    (closes : List CloseObservation) (trades : List TradeObservation) : Except Reason Settled :=
  let volume := (volumeOf fills).value
  if closeProof group fills closes trades then do
    let net : Figure := (trades.map (·.realizedNet.figure)).sum
    let fees : Figure := (closes.map feesOf).sum
    require (net.value = (closes.map grossAndCostsOf).sum ∧
      fees.value = (trades.map (·.signedFees.value)).sum) .actualSignedCostReconciliationMismatch
    return { status := .closed, recordedClosedNet := net, signedFees := fees }
  else if group.state = "CLOSED" ∨ trades ≠ [] ∨ volume < closedVolume closes then
    .error .closeProofIncomplete
  else if group.currentProtection.any (remainderMismatch fills closes) then
    .error .openPositionRemainingVolumeMismatch
  else if volume < order.approvedVolume.value ∨ 0 < closedVolume closes then
    return { status := .partialOpen }
  else return { status := .stillOpen }

/-- What became of an order with fills. -/
def settlePosition (packet : LearningEvidence) (positionUpdates : Option (Identity → Option Instant))
    (group : SetupObservation) (order : OrderObservation) : Except Reason Settled := do
  let fills := fillsOf packet.cutoff group order
  let positions : List (Option Identity) := fills.map (·.positionId)
  let closes := closesOf packet.cutoff group
  let trades := tradesOf packet.cutoff group
  let held : List Identity := group.currentProtection.map (·.positionId)
  require (none ∉ positions ∧ closes.length = group.closeDeals.length ∧
    trades.length = group.closedTrades.length ∧ held.Nodup) .positionOrCloseIdentityIncomplete
  require (samePositions group fills ∧ positions.toFinset.card = 1) .positionEvidenceIncomplete
  require (group.currentProtection.all fun p =>
    p.side = order.side ∧ 0 ≤ p.volume.value ∧ 0 < p.entryPrice.value ∧
      (positionClock positionUpdates p).any (· ≤ packet.cutoff)) .positionSideVolumeOrClockInvalid
  require (¬ chronologyInvalid fills closes) .closeVolumeOrChronologyInvalid
  require (group.currentProtection.all fun p =>
    (positionClock positionUpdates p).all fun clock =>
      (lastClock positionUpdates.isSome fills closes p.positionId).all (· ≤ clock))
    .positionObservationPrecedesLedger
  require (trades.all fun t => some t.openedAt = firstFill fills ∧ t.openedAt ≤ t.closedAt ∧
    t.direction = if order.side = .buy then .long else .short) .tradeClockOrDirectionInvalid
  classify group order fills closes trades

/-- What became of an order without fills. -/
def settleUnfilled (packet : LearningEvidence) (group : SetupObservation) (order : OrderObservation) :
    Except Reason Settled :=
  if terminal group order packet.cutoff ∧ group.closeDeals = [] ∧ group.closedTrades = [] ∧
      group.currentProtection = [] then .ok { status := .zeroFillTerminal }
  else if order.state = "PENDING" then .ok { status := .pending }
  else .error .zeroFillTerminalProofMissing

def Reconstruction.settle (row : Reconstruction) : Except Reason Settled → Reconstruction
  | .error reason => { row with reasons := row.reasons ++ [reason] }
  | .ok s => { row with
      status := s.status, recordedClosedNet := s.recordedClosedNet, signedFees := s.signedFees }

def reconstructOrder (packet : LearningEvidence)
    (positionUpdates : Option (Identity → Option Instant)) (group : SetupObservation)
    (order : OrderObservation) : Reconstruction :=
  let row := entryRow packet group order
  if row.reasons ≠ [] then row
  else if row.filledVolume.value = 0 then row.settle (settleUnfilled packet group order)
  else row.settle (settlePosition packet positionUpdates group order)

def unsupportedRow (group : SetupObservation) : Reconstruction where
  setupId := group.id
  status := .unsupported
  reasons := [.versionOrCardinalityUnsupported]

/-- The pass of the loop over one setup. -/
def reconstructSetup (packet : LearningEvidence)
    (positionUpdates : Option (Identity → Option Instant)) (group : SetupObservation) :
    Reconstruction :=
  match group.orders with
  | [order] =>
    if supportedMode group then reconstructOrder packet positionUpdates group order
    else unsupportedRow group
  | _ => unsupportedRow group

/-- `_reconstruct` -/
def reconstruct (packet : LearningEvidence) (positionUpdates : Option (Identity → Option Instant)) :
    List Reconstruction :=
  packet.setups.map (reconstructSetup packet positionUpdates)

end ScalpingBot.CurrentScalp
