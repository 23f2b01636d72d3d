import ScalpingBot.Scenario.Plan

/-! The checks of one proposed leg in packages/risk-engine/src/model-validator.ts: the reasons for
    which `checkLeg` refuses it, in the order in which it finds them. -/

namespace ScalpingBot.Model

open Scenario (isTickAligned)

/-- `ModelOrderProposal`, with the fields that only the checks read. -/
structure Proposal extends ModelOrderProposal where
  triggerPrice : Decimal
  invalidationPrice : Decimal
  riskRewardRatio : Decimal
  deriving DecidableEq

/-- `entryBrackets`. -/
inductive EntryBrackets where | stop | limit
  deriving DecidableEq

/-- What `checkLeg` reads of `SemanticContext`. -/
structure SemanticContext where
  enforceStrategyLimits : Bool := true
  entryBrackets : EntryBrackets := .stop
  now : Option ℕ
  /-- omitted, an instant or a text that is none -/
  expiryReferenceTime : Option (Option ℕ) := none
  quote : Quote
  metadata : SymbolMetadata
  atr : Decimal
  minRiskRewardRatio : Decimal
  minExpirySeconds : ℤ
  maxExpirySeconds : ℤ
  maxStopDistanceAtr : Decimal
  maxEntryDistanceAtr : Option Decimal := none
  maxAffordableStopDistance : Option Decimal := none
  minStopDistancePoints : Option Decimal := none

/-- An optional text. -/
def optionalDecimal : Option Decimal → Except String (Option Decimal)
  | none => .ok none
  | some value => return some (← decimal value)

/-- `minDistance` of `checkLeg`, and `configuredMinimumStopDistance` of the coordinator. -/
def minDistance (metadata : SymbolMetadata) (minStopDistancePoints : Option Decimal) :
    Except String Decimal := do
  let tickSize ← decimal metadata.tickSize
  let minStopDistance ← decimal metadata.minStopDistance
  let points ← optionalDecimal minStopDistancePoints
  return max (max minStopDistance tickSize) ((points.map tickSize.times).getD tickSize)

/-- A reason, where it applies. -/
def reasonIf (applies : Prop) [Decidable applies] (reason : String) : List String :=
  if applies then [reason] else []

@[simp] theorem mem_reasonIf {applies : Prop} [Decidable applies] {reason text : String} :
    text ∈ reasonIf applies reason ↔ applies ∧ text = reason := by
  rw [reasonIf]
  split <;> simp [*]

namespace SemanticContext

variable (context : SemanticContext)

def maximumEntryDistance : Except String (Option Decimal) :=
  match context.enforceStrategyLimits, context.maxEntryDistanceAtr with
  | true, some limit => return some ((← decimal context.atr).times (← decimal limit))
  | _, _ => .ok none

/-- The longest stop that the strategy allows. -/
def maximumStopDistance : Except String (Option Decimal) :=
  if context.enforceStrategyLimits then
    return some ((← decimal context.atr).times (← decimal context.maxStopDistanceAtr))
  else
    .ok none

/-- Why the expiry of a proposal is refused. -/
def expiryInvalid (expiresAt : Option ℕ) : Bool :=
  match expiresAt, context.expiryReferenceTime.getD context.now with
  | some expiry, some reference =>
    let elapsed : ℤ := expiry - reference
    (∃ now ∈ context.now, expiry ≤ now) || elapsed < 1000 * context.minExpirySeconds ||
      1000 * context.maxExpirySeconds < elapsed
  | _, _ => true

end SemanticContext

/-- The checks of the levels of a leg against the quote. -/
def levelReasons (side : OrderSide) (brackets : EntryBrackets) (entry stop target invalidation bid
    ask minDistance : Decimal) (maximumEntryDistance : Option Decimal) : List String :=
  match side with
  | .buy =>
    reasonIf (¬ (stop < entry ∧ entry < target)) "BUY_LEVEL_ORDER_INVALID" ++
    (match brackets with
    | .limit =>
      reasonIf (bid < entry) "BUY_LIMIT_ABOVE_BID" ++
      reasonIf (∃ limit ∈ maximumEntryDistance, limit < bid.minus entry)
        "BUY_ENTRY_DISTANCE_ATR_EXCEEDED"
    | .stop =>
      reasonIf (entry < ask.plus minDistance) "BUY_ENTRY_TOO_CLOSE" ++
      reasonIf (∃ limit ∈ maximumEntryDistance, limit < entry.minus ask)
        "BUY_ENTRY_DISTANCE_ATR_EXCEEDED") ++
    reasonIf (¬ invalidation ≤ entry) "BUY_INVALIDATION_INVALID"
  | .sell =>
    reasonIf (¬ (entry < stop ∧ target < entry)) "SELL_LEVEL_ORDER_INVALID" ++
    (match brackets with
    | .limit =>
      reasonIf (entry < ask) "SELL_LIMIT_BELOW_ASK" ++
      reasonIf (∃ limit ∈ maximumEntryDistance, limit < entry.minus ask)
        "SELL_ENTRY_DISTANCE_ATR_EXCEEDED"
    | .stop =>
      reasonIf (bid.minus minDistance < entry) "SELL_ENTRY_TOO_CLOSE" ++
      reasonIf (∃ limit ∈ maximumEntryDistance, limit < bid.minus entry)
        "SELL_ENTRY_DISTANCE_ATR_EXCEEDED") ++
    reasonIf (¬ entry ≤ invalidation) "SELL_INVALIDATION_INVALID"

/-- The checks of the distances of a leg. -/
def distanceReasons (side : OrderSide) (risk reward minDistance minRiskRewardRatio
    riskRewardRatio : Decimal) (maximumStopDistance maxAffordableStopDistance : Option Decimal) :
    List String :=
  let computedRatio := if 0 < risk then reward.div risk else 0
  reasonIf (risk < minDistance) (side.text ++ "_STOP_DISTANCE_TOO_SMALL") ++
  reasonIf (computedRatio < minRiskRewardRatio) (side.text ++ "_REWARD_RISK_TOO_LOW") ++
  reasonIf (1 / 100 < |computedRatio.minus riskRewardRatio|)
    (side.text ++ "_REWARD_RISK_MISMATCH") ++
  reasonIf (∃ limit ∈ maximumStopDistance, limit < risk)
    (side.text ++ "_STOP_DISTANCE_EXCESSIVE") ++
  reasonIf (∃ limit ∈ maxAffordableStopDistance, limit < risk)
    (side.text ++ "_STOP_DISTANCE_UNAFFORDABLE_AT_MIN_VOLUME")

def checkLeg (side : OrderSide) (proposal : Proposal) (context : SemanticContext) :
    Except String (List String) := do
  let entry ← decimal proposal.entryPrice
  let trigger ← decimal proposal.triggerPrice
  let stop ← decimal proposal.stopLoss
  let target ← decimal proposal.takeProfit
  let invalidation ← decimal proposal.invalidationPrice
  let tickSize ← decimal context.metadata.tickSize
  let minDistance ← minDistance context.metadata context.minStopDistancePoints
  let bid ← decimal context.quote.bid
  let ask ← decimal context.quote.ask
  let maximumEntryDistance ← context.maximumEntryDistance
  let minRiskRewardRatio ← decimal context.minRiskRewardRatio
  let riskRewardRatio ← decimal proposal.riskRewardRatio
  let maximumStopDistance ← context.maximumStopDistance
  let maxAffordableStopDistance ← optionalDecimal context.maxAffordableStopDistance
  return reasonIf (trigger ≠ entry) (side.text ++ "_TRIGGER_ENTRY_MISMATCH") ++
    reasonIf (¬ ∀ price ∈ [entry, trigger, stop, target, invalidation],
      isTickAligned price tickSize) (side.text ++ "_PRICE_NOT_ON_TICK") ++
    levelReasons side context.entryBrackets entry stop target invalidation bid ask minDistance
      maximumEntryDistance ++
    distanceReasons side |entry.minus stop| |target.minus entry| minDistance minRiskRewardRatio
      riskRewardRatio maximumStopDistance maxAffordableStopDistance ++
    reasonIf (context.expiryInvalid proposal.expiresAt) (side.text ++ "_EXPIRY_INVALID")

/-- What holds of a leg that is not refused, its expiry and its ratio apart. -/
structure Admitted (side : OrderSide) (proposal : Proposal) (context : SemanticContext)
    (minDistance : Decimal) : Prop where
  entry : isDecimalText proposal.entryPrice
  stop : isDecimalText proposal.stopLoss
  tick : isDecimalText context.metadata.tickSize
  bid : isDecimalText context.quote.bid
  distance : context.metadata.tickSize ≤ minDistance
  aligned : isTickAligned proposal.entryPrice context.metadata.tickSize ∧
    isTickAligned proposal.stopLoss context.metadata.tickSize
  affordable : ∀ limit ∈ context.maxAffordableStopDistance,
    |proposal.entryPrice.minus proposal.stopLoss| ≤ limit
  buyLimit : side = .buy → context.entryBrackets = .limit →
    proposal.stopLoss < proposal.entryPrice ∧ proposal.entryPrice ≤ context.quote.bid
  sellStop : side = .sell → context.entryBrackets = .stop →
    proposal.entryPrice < proposal.stopLoss ∧
      proposal.entryPrice ≤ context.quote.bid.minus minDistance

theorem reasonIf_eq_nil {applies : Prop} [Decidable applies] {reason : String} :
    reasonIf applies reason = [] ↔ ¬ applies := by
  rw [reasonIf]
  split <;> simp [*]

theorem checkLeg_admitted {side : OrderSide} {proposal : Proposal} {context : SemanticContext}
    (h : checkLeg side proposal context = .ok []) :
    ∃ minDistance, Admitted side proposal context minDistance := by
  simp only [checkLeg, bind_ok, decimal_ok, pure_ok, List.append_eq_nil_iff, reasonIf_eq_nil,
    not_not] at h
  obtain ⟨_, ⟨rfl, hentry⟩, _, -, _, ⟨rfl, hstop⟩, _, -, _, -, _, ⟨rfl, htick⟩, minDistance,
    hminimum, _, ⟨rfl, hbid⟩, _, -, limit, -, _, -, _, -, _, -, affordable, haffordable,
    ⟨⟨⟨-, haligned⟩, hlevels⟩, hdistances⟩, -⟩ := h
  have hlimit : affordable = context.maxAffordableStopDistance := by
    cases hcontext : context.maxAffordableStopDistance with
    | none =>
      rw [hcontext, optionalDecimal, Except.ok.injEq] at haffordable
      exact haffordable.symm
    | some value =>
      simp only [hcontext, optionalDecimal, bind_ok, decimal_ok, pure_ok] at haffordable
      obtain ⟨_, ⟨rfl, -⟩, rfl⟩ := haffordable
      rfl
  refine ⟨minDistance, hentry, hstop, htick, hbid, ?_, ⟨haligned _ (by simp), haligned _ (by simp)⟩,
    ?_, ?_, ?_⟩
  · simp only [Model.minDistance, bind_ok, decimal_ok, pure_ok] at hminimum
    obtain ⟨_, ⟨rfl, -⟩, _, -, _, -, rfl⟩ := hminimum
    exact (le_max_right _ _).trans (le_max_left _ _)
  · intro value hvalue
    simp only [distanceReasons, List.append_eq_nil_iff, reasonIf_eq_nil, hlimit, not_exists,
      not_and, not_lt] at hdistances
    exact hdistances.2 value hvalue
  · rintro rfl hbrackets
    simp only [levelReasons, hbrackets, List.append_eq_nil_iff, reasonIf_eq_nil, not_not, not_lt]
      at hlevels
    exact ⟨hlevels.1.1.1, hlevels.1.2.1⟩
  · rintro rfl hbrackets
    simp only [levelReasons, hbrackets, List.append_eq_nil_iff, reasonIf_eq_nil, not_not, not_lt]
      at hlevels
    exact ⟨hlevels.1.1.1, hlevels.1.2.1⟩

end ScalpingBot.Model
