import Mathlib.Algebra.BigOperators.Group.List.Basic
import ScalpingBot.Store.Tables

/-! Evidence that a position was closed: the close-deal ledger (position-close-ledger.ts), closes
    made by hand (manual-close-evidence.ts) and closes claimed by the protection
    (protective-close-evidence.ts). -/

namespace ScalpingBot.Store

variable (o : PostgresDemoExecutionStoreOptions)

namespace Tables

variable (t : Tables)

/-- The volume of the entry fills of a position. -/
def entryVolume (positionId : ℕ) : Decimal :=
  ((t.fills.filter fun f => f.positionId = some positionId ∧ f.orderId.isSome).map (·.volume)).sum

/-- The close deals recorded for a position. -/
def closeDealsOf (positionId : ℕ) : List CloseDealRow :=
  t.closeDeals.filter fun d => d.positionId = positionId

/-- The positions that the closing event can refer to. -/
def closablePositions (event : DemoExecutionEvent) (p : DemoExecutionPosition)
    (d : DemoExecutionCloseDetail) : List PositionRow :=
  t.positions.filter fun r =>
    r.accountId = o.accountId ∧ r.symbolId = o.symbolId ∧
    r.brokerPositionId.isSome ∧ r.brokerPositionId = event.brokerPositionId ∧ r.strategyOwned ∧
    (t.groupOf r).any (·.mode = .demo) ∧ r.side = p.side ∧ r.entryPrice = some d.entryPrice ∧
    r.openedAt.isSome ∧ r.openedAt = p.openedAt ∧ r.openedAt.any (· ≤ event.occurredAt) ∧
    ¬ t.orders.any fun q => q.accountId = o.accountId ∧ q.brokerOrderId.isSome ∧
      q.brokerOrderId = event.brokerOrderId

/-- `protectiveCloseAuthorized`. -/
def protectiveCloseAuthorized (event : DemoExecutionEvent) : Bool :=
  ((t.protections.filter fun pp =>
    t.positions.any fun p =>
      p.id = pp.positionId ∧ p.accountId = o.accountId ∧ p.symbolId = o.symbolId ∧
      p.brokerPositionId.isSome ∧ p.brokerPositionId = event.brokerPositionId ∧ p.strategyOwned ∧
      (t.groupOf p).any (·.mode = .demo) ∧
      pp.closeRequestedAt.any (fun at' => at' ≤ event.occurredAt ∧
        event.occurredAt ≤ at' + 120000) ∧
      (pp.brokerCloseOrderId = none ∨ pp.brokerCloseOrderId = event.brokerOrderId) ∧
      ((event.closeDetail.bind (·.closedVolume)).isNone ∨
        pp.closeVolume = event.closeDetail.bind (·.closedVolume))).length) = 1

end Tables

/-- The checks of `provePositionClose` that need no row: the fill, the close detail and the
    position of an event that may close, with the closed volume. -/
def closeEvidence (event : DemoExecutionEvent) :
    Option (DemoExecutionFill × DemoExecutionCloseDetail × DemoExecutionPosition × Decimal) :=
  match event.fill, event.closeDetail, event.position with
  | some f, some d, some p =>
    match d.closedVolume with
    | none => none
    | some closedVolume =>
      if ¬ event.closingOrder ∨ ¬ event.brokerOrderType.any (· ∈ [1, 4]) ∨
        event.executionType ∉ [3, 11] ∨
        ¬ event.orderState.any (· ∈ [.filled, .partiallyFilled]) ∨
        event.brokerOrderId.all (· = "") ∨ event.brokerPositionId.all (· = "") ∨
        p.entryPrice ≠ some d.entryPrice ∨
        event.brokerPositionId ≠ some f.brokerPositionId ∨
        event.brokerOrderId ≠ some f.brokerOrderId ∨
        event.brokerPositionId ≠ some p.brokerPositionId ∨ f.volume ≠ closedVolume ∨
        (p.state = .closed ∧ p.closedAt ≠ some f.occurredAt) then none
      else some (f, d, p, closedVolume)
  | _, _, _ => none

/-- The outcome of a position after one more close deal. -/
def aggregateClose (deals : List CloseDealRow) (d : DemoExecutionCloseDetail)
    (closed : Decimal) : DemoExecutionCloseDetail :=
  { d with
    closedVolume := some closed
    grossProfit := Decimal.plus (deals.map (·.grossProfit)).sum d.grossProfit
    commission := Decimal.plus (deals.map (·.commission)).sum d.commission
    swap := Decimal.plus (deals.map (·.swap)).sum d.swap
    pnlConversionFee := Decimal.plus (deals.map (·.conversionFee)).sum d.pnlConversionFee }

/-- `provePositionClose`: the position and its outcome so far. -/
def provePositionClose (t : Tables) (event : DemoExecutionEvent) :
    Option (ℕ × DemoExecutionCloseDetail) :=
  match closeEvidence event with
  | none => none
  | some (f, d, p, closedVolume) =>
    match t.closablePositions o event p d with
    | [row] =>
      let deals := t.closeDealsOf row.id
      let closed := Decimal.plus (deals.map (·.closedVolume)).sum closedVolume
      let remaining := Decimal.minus (t.entryVolume row.id) closed
      -- a deal that the ledger has already counted is no new evidence
      if deals.any (·.brokerDealId = f.brokerFillId) ∨ closed ≤ 0 ∨ remaining < 0 ∨
        p.volume ≠ remaining ∨ (if remaining = 0 then p.state ≠ .closed else p.state ≠ .opened) then
        none
      else some (row.id, aggregateClose deals d closed)
    | _ => none

/-- `recordPositionClose`: the ledger with the deal, and the outcome so far. -/
def recordPositionClose (t : Tables) (event : DemoExecutionEvent) (external : Bool) :
    Except String (Tables × DemoExecutionCloseDetail) :=
  match closeEvidence event, provePositionClose o t event with
  | some (f, d, _, closedVolume), some (positionId, aggregate) =>
    if closedVolume.numeric ≤ 0 ∨ d.entryPrice.numeric ≤ 0 ∨
      [closedVolume, d.entryPrice, d.grossProfit, d.commission, d.swap, d.pnlConversionFee].any
        (fun a => decide (10 ^ 20 ≤ |a.numeric|)) ∨
      t.closeDeals.any fun r => r.brokerDealId = f.brokerFillId ∧
        (r.accountId = o.accountId ∨ r.positionId = positionId) then
      .error "position_close_deals"
    else .ok
      ({ t with
        closeDeals := t.closeDeals ++ [
          { accountId := o.accountId
            symbolId := o.symbolId
            positionId
            brokerDealId := f.brokerFillId
            brokerOrderId := f.brokerOrderId
            closedVolume := closedVolume.numeric
            entryPrice := d.entryPrice.numeric
            grossProfit := d.grossProfit.numeric
            commission := d.commission.numeric
            swap := d.swap.numeric
            conversionFee := d.pnlConversionFee.numeric
            occurredAt := event.occurredAt
            externalIntervention := external
            evidenceHash := event.payloadHash }] }, aggregate)
  | _, _ => .error "DEMO_CLOSE_DEAL_EVIDENCE_INVALID"

/-- `observedManualClose`: a market close that no protection claimed and no strategy order made. -/
def observedManualClose (t : Tables) (event : DemoExecutionEvent) : Bool :=
  if event.brokerOrderType ≠ some 1 ∨ event.clientOrderId.any (·.startsWith "cas-") then false
  else if t.protections.any fun pp => pp.closeRequestedAt.isSome ∧ t.positions.any fun p =>
      p.id = pp.positionId ∧ p.accountId = o.accountId ∧ p.symbolId = o.symbolId ∧
      p.brokerPositionId.isSome ∧ p.brokerPositionId = event.brokerPositionId then false
  else (provePositionClose o t event).isSome

end ScalpingBot.Store
