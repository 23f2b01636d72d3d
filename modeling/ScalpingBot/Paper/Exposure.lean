import ScalpingBot.Paper.Stages

/-! What the paper gateway has at risk: how many positions of a group are not closed, whether the
    other leg of a filled one is live, and the profit that `accountMark` reports. -/

namespace ScalpingBot.Paper

variable (o : PaperGatewayOptions)

/-- What a position brought, from its own entry and exit. -/
def result (p : PaperPosition) : Decimal :=
  profit o p.side p.entryPrice (p.exitPrice.getD 0) p.volume

variable {o} {g : PaperGateway}

theorem Booked.realizedPnl_eq {p : PaperPosition} (h : Booked o p) (hp : p.state = .closed) :
    p.realizedPnl = result o p := by
  obtain ⟨x, hx, hprofit⟩ := h hp
  rw [hprofit, result, hx]
  rfl

/-- The results that a mark adds up. -/
def PaperGateway.results (o : PaperGatewayOptions) (g : PaperGateway) (symbol : String) :
    List Decimal :=
  ((g.relevantPositions symbol).filter (·.state = .closed)).map (result o)

theorem Sound.realizedPnl (h : Sound o g) {symbol : String} {bid ask : Decimal}
    {mark : PaperAccountMark} (hm : g.accountMark o symbol bid ask = .ok mark) :
    mark.realizedPnl = (g.results o symbol).foldl Decimal.plus 0 := by
  simp only [PaperGateway.accountMark, bind_ok, pure_ok] at hm
  obtain ⟨-, -, -, -, rfl⟩ := hm
  rw [PaperGateway.results]
  refine congrArg (List.foldl Decimal.plus 0) (List.map_congr_left fun p hp => ?_)
  obtain ⟨hmem, hclosed⟩ := List.mem_filter.mp hp
  exact (h.booked p (List.mem_filter.mp hmem).1).realizedPnl_eq (of_decide_eq_true hclosed)

theorem not_isFilled_of_waiting {order : MutablePaperOrder} (h : Waiting order) :
    ¬ isFilled order := by
  rcases h with h | h | h <;> simp [isFilled, h]

theorem not_isFilled_of_dead {order : MutablePaperOrder} (h : Dead order) : ¬ isFilled order := by
  rcases h with h | h | h <;> simp [isFilled, h]

/-- An order that may still be filled or cancelled. -/
def Live (order : MutablePaperOrder) : Prop :=
  order.state = .pending ∨ order.state = .partiallyFilled

theorem Dead.not_live {order : MutablePaperOrder} (h : Dead order) : ¬ Live order := by
  rcases h with h | h | h <;> simp [Live, h]

theorem Entered.not_pending {order : MutablePaperOrder} (h : Entered order) :
    order.state ≠ .pending := by
  rcases h with h | h | h <;> simp [h]

namespace Stage

variable {group : PaperGroup} {held : List PaperPosition} (h : Stage group held)
include h

/-- A leg is filled only once the other one is out of the market, or the group is in doubt. -/
theorem peer_of_filled {l : Leg} (hl : isFilled (group.orders l)) :
    Dead (group.orders l.peer) ∨
      group.state = .reconciliationRequired ∧ (group.orders l.peer).state ≠ .pending := by
  cases h with
  | waiting _ hw => exact absurd hl (not_isFilled_of_waiting (hw l))
  | abandoned _ hd => exact absurd hl (not_isFilled_of_dead (hd l))
  | doubtful _ hs _ he => exact .inr ⟨hs, (he l.peer).not_pending⟩
  | holding p _ _ _ hd | finished p _ _ _ hd =>
    rcases p.order.leg.eq_or_peer l with rfl | rfl
    · exact .inl hd
    · exact absurd hl (not_isFilled_of_dead hd)

theorem length_not_closed (hs : group.state ≠ .reconciliationRequired) :
    (held.filter (·.state ≠ .closed)).length ≤ 1 := by
  cases h with
  | waiting | abandoned => simp
  | doubtful _ hd => exact absurd hd hs
  | holding p | finished p => exact List.length_filter_le _ _

end Stage

/-- Outside RECONCILIATION_REQUIRED a group has at most one position that is not closed and no live
    leg beside a filled one; even there no pending one. The mark adds up what the closed positions
    brought. -/
theorem exposure_of_run {es : List Call} (hr : Transition.run (step o) .empty es = some g) :
    (∀ k group, g.groups[k]? = some group →
      (∀ l, isFilled (group.orders l) → (group.orders l.peer).state ≠ .pending) ∧
      (group.state ≠ .reconciliationRequired →
        ((g.held k).filter (·.state ≠ .closed)).length ≤ 1 ∧
        ∀ l, isFilled (group.orders l) → ¬ Live (group.orders l.peer))) ∧
    ∀ symbol bid ask mark, g.accountMark o symbol bid ask = .ok mark →
      mark.realizedPnl = (g.results o symbol).foldl Decimal.plus 0 ∧
      ((∀ part, part <+: g.results o symbol →
        Significant.truncate Decimal.precision part.sum = part.sum) →
          mark.realizedPnl = (g.results o symbol).sum) := by
  have hsound : Sound o g := (sound_empty o).run hr
  refine ⟨fun k group hk => ?_, fun symbol bid ask mark hm => ?_⟩
  · have hstage := hsound.stage k group hk
    refine ⟨fun l hl => ?_, fun hs => ⟨hstage.length_not_closed hs, fun l hl => ?_⟩⟩
    · rcases hstage.peer_of_filled hl with hd | ⟨-, hp⟩
      · exact hd.not_pending
      · exact hp
    · exact ((hstage.peer_of_filled hl).resolve_right fun hd => hs hd.1).not_live
  · have hfold := hsound.realizedPnl hm
    exact ⟨hfold, fun hfits => by rw [hfold, Decimal.foldl_plus_eq_sum hfits]⟩

namespace Sample

/-- The constructor's defaults. -/
def options : PaperGatewayOptions where
  tickSize := 1 / 100
  tickValue := 1 / 100
  slippagePoints := 0
  maxSlippagePoints := 5
  maxSlippageBps := 2
  tickSize_pos := by norm_num
  tickValue_pos := by norm_num
  slippagePoints_nonneg := le_rfl
  maxSlippagePoints_nonneg := by norm_num
  maxSlippageBps_nonneg := by norm_num
  slippagePoints_le := by norm_num

/-- A leg of a pair: buy above 16 or sell below 15. -/
def leg (side : OrderSide) (volume : Decimal) : PendingOrderCommand where
  executionOrderType := some .stop
  idempotencyKey := if side = .buy then "buy-key" else "sell-key"
  analysisId := "analysis-1"
  orderGroupId := "group-1"
  clientOrderId := if side = .buy then "buy-1" else "sell-1"
  symbol := "XAUUSD"
  side := side
  volume := volume
  entryPrice := if side = .buy then 16 else 15
  stopLoss := if side = .buy then 14 else 17
  takeProfit := if side = .buy then 20 else 11
  expiresAt := some 1000
  timeInForce := some .gtc
  strategyLabel := "scalper:v1"

/-- Both legs of 100 and 200 units are placed. -/
def placed : Call := .place (leg .buy 100) (leg .sell 200) 0

/-- A quote, with the volume that it fills at most. -/
def quote (bid ask : Decimal) (partialVolume : Option Decimal) : Call :=
  .quote ⟨"XAUUSD", bid, ask, 1, partialVolume⟩

/-- The buy leg is filled and its position stopped out. -/
def stoppedOut : List Call := [placed, quote (31 / 2) 16 none, quote 13 14 none]

end Sample

theorem exposure_of_run_stoppedOut : ∃ g,
    Transition.run (step Sample.options) .empty Sample.stoppedOut = some g ∧ ∀ group, g.groups[0]? = some group → group.state ≠ .reconciliationRequired →
      ((g.held 0).filter (·.state ≠ .closed)).length ≤ 1 :=
  ⟨_, rfl, fun group hk hs =>
    (((@exposure_of_run Sample.options _ Sample.stoppedOut rfl).1 0 group hk).2 hs).1⟩

/-- A quote that touches both legs and fills 150 units leaves one of them filled and the other partly
    filled, where the gateway would still cancel it. -/
theorem peer_partially_filled :
    ((Transition.run (step Sample.options) .empty
      [Sample.placed, Sample.quote 15 16 (some 150)]).bind fun g => g.groups[0]?).map
        (fun group => (group.state, (group.orders .first).state, (group.orders .second).state)) =
      some (.reconciliationRequired, .filled, .partiallyFilled) := by
  decide +kernel

end ScalpingBot.Paper
