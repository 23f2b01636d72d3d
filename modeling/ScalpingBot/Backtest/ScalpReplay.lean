import Mathlib.Data.Finset.Card
import Mathlib.Data.Finset.Dedup
import ScalpingBot.Learning.Evidence
import ScalpingBot.Library.Checked
import ScalpingBot.Library.Dictionary

/-! `reconstruct` of python/backtest/scalp_replay.py: the state and the volumes that the records of a
    setup give evidence of. Sums are exact there, and the weighted entry is taken as exact here. The
    diagnostics of paths and exposures, which only go beside them, are left out. -/

namespace ScalpingBot.ScalpReplay

open Learning

inductive State where
  | unknown | unfilledPending | zeroFillTerminal | partialOpen | stillOpen | closed
  deriving DecidableEq

inductive Reason where
  | gtdAckNotRetained
  | entryRangeAckNotRetained
  | historicalBrokerMetadataNotAttested
  | legacyOrUnsupportedSetup
  | orderTypeMismatch
  | groupIntentMismatch
  | contextMissingOrUnordered
  | contextReleaseMismatch
  | approvedIntentContextMismatch
  | admissionChronologyInvalid
  | orderVolumeInvalid
  | fillOrderLinkUnavailable
  | fillNotKnownAtCutoff
  | fillPriceOrVolumeInvalid
  | fillIdentityConflict
  | fillClockUnordered
  | fillVolumeMismatch
  | brokerEventUnresolved
  | brokerEventNotKnownAtCutoff
  | closeDealIdentityDuplicate
  | brokerEventIdentityDuplicate
  | protectionHistoryIdentityDuplicate
  | terminalStateConflict
  | positionEvidenceIncomplete
  | closureProofIncomplete
  | terminalProofMissing
  | duplicateClosedTradeIdentity
  | closeNotKnownAtCutoff
  deriving DecidableEq

structure SetupReconstruction where
  setupId : Identity
  supported : Bool
  state : State
  rawFillRows : ℕ
  uniqueEntryFills : ℕ := 0
  filledVolume : Figure := 0
  weightedEntry : Option ℚ := none
  partialCloseVolume : Figure := 0
  recordedClosedTrades : ℕ
  recordedClosedNet : Option Figure := none
  reasons : Finset Reason

def release : String := "0.8.0-model-scalp.1-codex.1"

/-- The reasons that every row has. -/
def standing : List Reason :=
  [.gtdAckNotRetained, .entryRangeAckNotRetained, .historicalBrokerMetadataNotAttested]

def blockers : List Reason :=
  [.orderTypeMismatch, .groupIntentMismatch, .contextMissingOrUnordered, .contextReleaseMismatch,
    .approvedIntentContextMismatch, .fillOrderLinkUnavailable, .positionEvidenceIncomplete,
    .closeDealIdentityDuplicate, .brokerEventIdentityDuplicate, .protectionHistoryIdentityDuplicate,
    .terminalStateConflict, .fillNotKnownAtCutoff, .fillIdentityConflict, .fillClockUnordered,
    .fillVolumeMismatch, .brokerEventUnresolved, .brokerEventNotKnownAtCutoff, .closeNotKnownAtCutoff,
    .duplicateClosedTradeIdentity, .admissionChronologyInvalid, .orderVolumeInvalid,
    .fillPriceOrVolumeInvalid, .closureProofIncomplete, .terminalProofMissing]

/-- The reasons of the tests that hold. -/
def flagged (tests : List (Bool × Reason)) : List Reason :=
  tests.filterMap fun test => if test.1 then some test.2 else none

/-! ### The intent -/

def groupMismatch (group : SetupObservation) (order : OrderObservation) : Bool :=
  group.executionMode ≠ some "SINGLE_STOP_LIMIT" || group.expiresAt ≠ order.expiresAt ||
    group.submissionValidUntil ≠ order.submissionValidUntil ||
    order.submissionValidUntil ≠ order.expiresAt || order.expiresAt = none

/-- `value is None or Decimal(value) != Decimal(expected)` -/
def differs (value : Option Number) (expected : Number) : Bool :=
  value.all fun v => v.value ≠ expected.value

def contextReasons (group : SetupObservation) (order : OrderObservation) :
    Option ContextObservation → List Reason
  | none => [.contextMissingOrUnordered]
  | some context =>
    if (context.decision ≠ .buy ∧ context.decision ≠ .sell) ∨ context.clockStatus ≠ .causal then
      [.contextMissingOrUnordered]
    else if context.originRelease ≠ group.originRelease then [.contextReleaseMismatch]
    else flagged [(context.decision ≠ .of order.side || differs context.entryPrice order.entryPrice ||
      differs context.takeProfit order.takeProfit || differs context.stopLoss order.stopLoss ||
      some context.validUntil ≠ order.expiresAt, .approvedIntentContextMismatch)]

/-- `context.availableAt`, if there is a context. -/
def availableAt (context : Option ContextObservation) : Option Instant :=
  context.bind ContextObservation.availableAt

def admissionInvalid (group : SetupObservation) (order : OrderObservation)
    (context : Option ContextObservation) : Bool :=
  (availableAt context).any fun available => group.createdAt < available ||
    group.brokerEvents.any fun e =>
      e.orderId = some order.id ∧ e.executionType = 2 ∧ e.occurredAt < available

/-! ### The fills -/

structure FillScan where
  fills : List FillObservation := []
  reasons : List Reason := []

/-- A fill that a test sends to the next one. -/
def FillScan.skip (s : FillScan) (reason : Reason) : FillScan := { s with reasons := s.reasons ++ [reason] }

/-- The pass of the loop over one fill. -/
def scanFill (cutoff : Instant) (order : OrderObservation) (context : Option ContextObservation)
    (s : FillScan) (fill : FillObservation) : FillScan :=
  if fill.orderId ≠ some order.id then s.skip .fillOrderLinkUnavailable
  else if cutoff < fill.receivedAt then s.skip .fillNotKnownAtCutoff
  else if fill.volume.value ≤ 0 ∨ fill.price.value ≤ 0 then s.skip .fillPriceOrVolumeInvalid
  else
    { fills := Dictionary.put FillObservation.id fill s.fills
      reasons := s.reasons ++ flagged [
        ((availableAt context).any (fill.occurredAt < ·), .admissionChronologyInvalid),
        (s.fills.any fun f => f.id = fill.id ∧ f ≠ fill, .fillIdentityConflict),
        (fill.clockStatus ≠ .causal, .fillClockUnordered)] }

def scanFills (cutoff : Instant) (group : SetupObservation) (order : OrderObservation)
    (context : Option ContextObservation) : FillScan :=
  group.fills.foldl (scanFill cutoff order context) {}

/-- `quantity` -/
def quantityOf (fills : List FillObservation) : Figure := (fills.map (·.volume.figure)).sum

def weightedEntry (fills : List FillObservation) : Option ℚ :=
  if (quantityOf fills).value = 0 then none
  else some ((fills.map fun f => f.volume.value * f.price.value).sum / (quantityOf fills).value)

/-! ### The close deals -/

/-- `close_rows` -/
def closeRows (cutoff : Instant) (group : SetupObservation) : List CloseObservation :=
  group.closeDeals.filter fun d => d.recordedAt ≤ cutoff

def scanClose (closes : List CloseObservation) (deal : CloseObservation) :
    Except String (List CloseObservation) :=
  if closes.any fun d => d.id = deal.id ∧ d ≠ deal then .error "SCALP_CLOSE_DEAL_IDENTITY_CONFLICT"
  else .ok (Dictionary.put CloseObservation.id deal closes)

/-- `closes` -/
def closesOf (cutoff : Instant) (group : SetupObservation) : Except String (List CloseObservation) :=
  (closeRows cutoff group).foldlM scanClose []

/-- `partialCloseVolume` -/
def partialClose (closes : List CloseObservation) : Figure := (closes.map (·.closedVolume.figure)).sum

/-! ### The state -/

def terminalConflict (group : SetupObservation) (order : OrderObservation) : Bool :=
  group.brokerEvents.any fun e => e.about order ∧ e.executionType ∈ [5, 6, 7] ∧
    e.mappingState = .mapped ∧ (e.executionType, order.state) ∉ terminalStates

/-- The volume of an open position's row is not what its fills and close deals leave. -/
def remainderMismatch (fills : List FillObservation) (closes : List CloseObservation)
    (p : ProtectionObservation) : Bool :=
  p.positionState = "OPEN" &&
    p.volume.value ≠ filledInto fills p.positionId - closedFrom closes p.positionId

/-- `positions` -/
def positionsOf (fills : List FillObservation) : Finset (Option Identity) :=
  (fills.map (·.positionId)).toFinset

/-- `protected_positions` -/
def protectedPositions (group : SetupObservation) : Finset (Option Identity) :=
  (group.currentProtection.map fun p => some p.positionId).toFinset

/-- `closed_positions` -/
def closedPositions (closes : List CloseObservation) : Finset (Option Identity) :=
  (closes.map fun d => some d.positionId).toFinset

def positionMismatch (group : SetupObservation) (order : OrderObservation)
    (fills : List FillObservation) (closes : List CloseObservation) : Bool :=
  none ∈ positionsOf fills || positionsOf fills ≠ protectedPositions group ||
    (protectedPositions group).card ≠ group.currentProtection.length ||
    (group.currentProtection.any fun p => p.side ≠ order.side) ||
    group.currentProtection.any (remainderMismatch fills closes)

/-- The records prove that every position was closed. -/
def closeProof (group : SetupObservation) (fills : List FillObservation)
    (closes : List CloseObservation) : Bool :=
  group.state = "CLOSED" && group.closedTrades ≠ [] && group.currentProtection ≠ [] &&
    none ∉ positionsOf fills && positionsOf fills = protectedPositions group &&
    protectedPositions group = closedPositions closes &&
    group.currentProtection.all (·.positionState = "CLOSED") &&
    (partialClose closes).value = (quantityOf fills).value &&
    (fills.map (·.positionId)).all fun position =>
      position.all fun p => closedFrom closes p = filledInto fills p

/-- The branches over the quantity. -/
def classify (cutoff : Instant) (group : SetupObservation) (order : OrderObservation)
    (fills : List FillObservation) (closes : List CloseObservation) : Except Reason State :=
  if (quantityOf fills).value ≠ 0 then
    if closeProof group fills closes then .ok .closed
    else if group.closedTrades ≠ [] ∨ group.state = "CLOSED" ∨
        group.currentProtection.any (·.positionState = "CLOSED") then .error .closureProofIncomplete
    else .ok (if (quantityOf fills).value < order.approvedVolume.value then .partialOpen else .stillOpen)
  else if terminal group order cutoff ∧ group.state ∈ ["CLOSED", "EXPIRED", "FAILED"] ∧
      group.currentProtection = [] ∧ group.closedTrades = [] ∧ group.closeDeals = [] then
    .ok .zeroFillTerminal
  else if order.state = "PENDING" then .ok .unfilledPending
  else .error .terminalProofMissing

/-- `trades.values()` -/
def tradesOf (group : SetupObservation) : List TradeObservation :=
  Dictionary.values TradeObservation.id group.closedTrades

/-- The reasons that a setup's records give, apart from the standing ones. -/
def reasonsOf (cutoff : Instant) (group : SetupObservation) (order : OrderObservation)
    (context : Option ContextObservation) (closes : List CloseObservation) : List Reason :=
  let scan := scanFills cutoff group order context
  let quantity := (quantityOf scan.fills).value
  flagged [
      (order.orderType ≠ .stopLimit || order.timeInForce ≠ .gtd, .orderTypeMismatch),
      (groupMismatch group order, .groupIntentMismatch)] ++
    contextReasons group order context ++
    flagged [
      (admissionInvalid group order context, .admissionChronologyInvalid),
      (order.approvedVolume.value ≤ 0 || order.filledVolume.value < 0, .orderVolumeInvalid)] ++
    scan.reasons ++
    flagged [
      (quantity ≠ order.filledVolume.value || order.approvedVolume.value < quantity,
        .fillVolumeMismatch),
      (group.brokerEvents.any fun e =>
          (e.mappingState ≠ .mapped ∨ e.reasonCodes ≠ []) ∧ e.resolvedAt = none,
        .brokerEventUnresolved),
      (group.brokerEvents.any fun e => cutoff < e.persistedAt, .brokerEventNotKnownAtCutoff),
      (closes.length ≠ (closeRows cutoff group).length, .closeDealIdentityDuplicate),
      (¬ (group.brokerEvents.map (·.id)).Nodup, .brokerEventIdentityDuplicate),
      (¬ (group.protectionHistory.map (·.id)).Nodup, .protectionHistoryIdentityDuplicate),
      (terminalConflict group order, .terminalStateConflict),
      (quantity ≠ 0 && positionMismatch group order scan.fills closes, .positionEvidenceIncomplete),
      ((tradesOf group).length ≠ group.closedTrades.length, .duplicateClosedTradeIdentity),
      ((tradesOf group).any fun t => cutoff < t.closedAt, .closeNotKnownAtCutoff)] ++
    match classify cutoff group order scan.fills closes with
    | .ok _ => []
    | .error reason => [reason]

def rowOf (cutoff : Instant) (group : SetupObservation) (order : OrderObservation)
    (context : Option ContextObservation) (closes : List CloseObservation) : SetupReconstruction :=
  let fills := (scanFills cutoff group order context).fills
  let reasons := standing ++ reasonsOf cutoff group order context closes
  { setupId := group.id
    supported := order.orderType = .stopLimit ∧ order.timeInForce = .gtd
    state :=
      if reasons.any (· ∈ blockers) then .unknown
      else match classify cutoff group order fills closes with
        | .ok state => state
        | .error _ => .unknown
    rawFillRows := group.fills.length
    uniqueEntryFills := fills.length
    filledVolume := quantityOf fills
    weightedEntry := weightedEntry fills
    partialCloseVolume := partialClose closes
    recordedClosedTrades := group.closedTrades.length
    recordedClosedNet :=
      if (tradesOf group).any (fun t => cutoff < t.closedAt) ∨ tradesOf group = [] then none
      else some ((tradesOf group).map (·.realizedNet.figure)).sum
    reasons := reasons.toFinset }

def unsupportedRow (group : SetupObservation) : SetupReconstruction where
  setupId := group.id
  supported := false
  state := .unknown
  rawFillRows := group.fills.length
  recordedClosedTrades := group.closedTrades.length
  reasons := {.legacyOrUnsupportedSetup}

/-- `reconstruct` -/
def reconstruct (group : SetupObservation) (context : Option ContextObservation) (cutoff : Instant) :
    Except String SetupReconstruction :=
  match group.orders with
  | [order] =>
    if group.originRelease = release ∧ group.timeInForce = .gtd then do
      let closes ← closesOf cutoff group
      return rowOf cutoff group order context closes
    else .ok (unsupportedRow group)
  | _ => .ok (unsupportedRow group)

end ScalpingBot.ScalpReplay
