import ScalpingBot.Candidates.Payoff

/-! The admission of a scalp in packages/strategy-candidates/src/directional-scalp.ts and its costs
    in quick-oco.ts. The net reward of a trial goes through a text before it is compared. -/

namespace ScalpingBot.Candidates

open Scenario (isTickAligned)

/-! ### Profiles and evidence -/

/-- The fields of a `TrialProfile` without an entry style that are read. -/
structure EntryProfile where
  targetDistance : Decimal
  entryRangePoints : ℕ
  baseExitReservePoints : ℕ
  stressExitReservePoints : ℕ

inductive EntryStyle where | breakout | confirmedBreakout | retestLimit
  deriving DecidableEq

structure TrendProfile where
  entryStyle : EntryStyle
  entryRangePoints : ℕ

inductive TrialProfile where
  | entry (profile : EntryProfile)
  | trend (profile : TrendProfile)

inductive VolumeStage where | minimumDiagnostic | actual
  deriving DecidableEq

structure QuickOcoEvidence where
  grossTargetPips : Decimal
  modeledRoundTripCommission : Decimal
  modeledConversionFee : Decimal
  executionReservePrice : Decimal
  modeledNetPips : Decimal
  deriving DecidableEq

structure QuickOcoCost where
  netPrice : Decimal
  evidence : QuickOcoEvidence
  deriving DecidableEq

structure TrialPayoffEvidence where
  volume : Decimal
  targetDistancePrice : Decimal
  stopDistancePrice : Decimal
  modeledBaseTargetNetPrice : Decimal
  modeledStressTargetNetPrice : Decimal
  modeledStressStopLossPrice : Decimal
  modeledBaseCommissionPrice : Decimal
  modeledStressCommissionPrice : Decimal
  baseExitReservePrice : Decimal
  stressExitReservePrice : Decimal
  modeledBreakEvenWinFraction : Option Decimal
  deriving DecidableEq

structure TrendPayoffEvidence where
  volume : Decimal
  worstEntryPrice : Decimal
  entryAllowancePrice : Decimal
  modeledNetRewardPrice : Decimal
  modeledStopLossPrice : Decimal
  modeledCommissionPrice : Decimal
  exitReservePrice : Decimal
  admitted : Bool
  deriving DecidableEq

/-- What the cost-balanced admission adds to the evidence. -/
structure BalancedEvidence where
  executionReservePrice : Decimal
  modeledNetPips : Decimal
  modeledRoundTripCommission : Decimal
  modeledConversionFee : Decimal
  modeledNetRewardPrice : Decimal
  modeledStopLossPrice : Decimal
  modeledRoundTripFeePrice : Decimal
  deriving DecidableEq

inductive AdmissionEvidence where
  | none
  | trend (evidence : TrendPayoffEvidence)
  | trial (evidence : TrialPayoffEvidence)
  | balanced (evidence : BalancedEvidence)
  deriving DecidableEq

structure CheckEvidence where
  cost : QuickOcoEvidence
  admission : AdmissionEvidence
  deriving DecidableEq

/-! ### The code -/

section

variable (round : ℚ → ℚ)

def quickOcoCost (metadata : SymbolMetadata) (entry target volume : Decimal) :
    Except String QuickOcoCost := do
  let tick ← decimal metadata.tickSize
  let pip ← decimal metadata.pipSize
  let tickValue ← decimal metadata.tickValue
  let perPrice := round (round (tickValue * volume) / tick)
  let feeRate ← decimal metadata.commission.pnlConversionFeeRate
  let conversionRate := round (feeRate / 100)
  require (0 < tick ∧ 0 < pip ∧ Decimal.isInteger (round (pip / tick)) ∧ 0 < perPrice ∧
    0 ≤ conversionRate ∧ conversionRate < 1) "QUICK_OCO_COST_METADATA_INVALID"
  let reserve := round (tick * round (quickOco.entryReservePoints + quickOco.exitReservePoints))
  let priceBound := round (max entry target + reserve)
  let commission := round ((← oneWayCommission round metadata priceBound volume) * 2)
  let gross := round (|round (entry - target)| * perPrice)
  let conversion := round (gross * conversionRate)
  let netPrice := round (round (round (round (gross - commission) - conversion) / perPrice) -
    reserve)
  return {
    netPrice := netPrice
    evidence := {
      grossTargetPips := round (|round (entry - target)| / pip)
      modeledRoundTripCommission := commission
      modeledConversionFee := conversion
      executionReservePrice := reserve
      modeledNetPips := Decimal.toDecimalPlacesDown 10 (round (netPrice / pip)) } }

def validateTrialPointBasis (metadata : SymbolMetadata) : Except String Unit := do
  require (metadata.digits ≤ 10) "SCALP_TRIAL_POINT_BASIS_UNSUPPORTED"
  let tick ← decimal metadata.tickSize
  require (tick = 1 / 10 ^ metadata.digits) "SCALP_TRIAL_POINT_BASIS_UNSUPPORTED"

def trialPayoffEvidence (metadata : SymbolMetadata) (entry target stop volume : Decimal)
    (profile : EntryProfile) : Except String TrialPayoffEvidence := do
  validateTrialPointBasis metadata
  let e ← decimal entry
  let t ← decimal target
  let reward := |round (t - e)|
  let s ← decimal stop
  let risk := |round (s - e)|
  let quantity ← decimal volume
  let base ← balancedPayoff round metadata e reward risk quantity profile.baseExitReservePoints
    profile.entryRangePoints
  let stress ← balancedPayoff round metadata e reward risk quantity
    profile.stressExitReservePoints profile.entryRangePoints
  return {
    volume := volume
    targetDistancePrice := reward
    stopDistancePrice := risk
    modeledBaseTargetNetPrice := base.netReward
    modeledStressTargetNetPrice := stress.netReward
    modeledStressStopLossPrice := stress.netLoss
    modeledBaseCommissionPrice := base.fees
    modeledStressCommissionPrice := stress.fees
    baseExitReservePrice := base.reserve
    stressExitReservePrice := stress.reserve
    modeledBreakEvenWinFraction :=
      if 0 < base.netReward then
        some (round (stress.netLoss / round (stress.netLoss + base.netReward)))
      else
        none }

def trendPayoffEvidence (metadata : SymbolMetadata) (side : OrderSide)
    (entry target stop volume : Decimal) (points : ℕ) : Except String TrendPayoffEvidence := do
  validateTrialPointBasis metadata
  require (points = 0 ∨ points = 30) "SCALP_TREND_RANGE_INVALID"
  let tick ← decimal metadata.tickSize
  let allowance := round (tick * points)
  let sign : Decimal := if side = .buy then 1 else -1
  let e := round ((← decimal entry) + round (allowance * sign))
  let reward := round (round ((← decimal target) - e) * sign)
  let risk := round (round (e - stop) * sign)
  let p ← balancedPayoff round metadata e reward risk (← decimal volume) 65 0
  return {
    volume := volume
    worstEntryPrice := e
    entryAllowancePrice := allowance
    modeledNetRewardPrice := p.netReward
    modeledStopLossPrice := p.netLoss
    modeledCommissionPrice := p.fees
    exitReservePrice := p.reserve
    admitted := 0 < reward ∧ 0 < risk ∧ 0 < p.netReward ∧ 0 < p.netLoss ∧
      p.netLoss ≤ p.netReward }

/-- The limits that `check` selects. -/
def limitsOf (balanced : Bool) : Option TrialProfile → ScalpLimits
  | some (.trend _) => costBalancedScalpLimits
  | some (.entry _) => demoTrialScalpLimits
  | none => if balanced then costBalancedScalpLimits else scalpLimits

/-- `trial && "entryStyle" in trial`. -/
def isTrend : Option TrialProfile → Bool
  | some (.trend _) => true
  | _ => false

/-- A command under `check`, with its distances and the cost of its target. -/
structure CheckedCost where
  entry : Decimal
  reward : Decimal
  risk : Decimal
  quantity : Decimal
  cost : QuickOcoCost

/-- The net reward that a target must leave. -/
def netObjective (metadata : SymbolMetadata) : Decimal :=
  round (metadata.pipSize * quickOco.netTargetPips)

/-- The part of `check` that all profiles share. -/
def checkCost (side : OrderSide) (entry target stop : Decimal) (metadata : SymbolMetadata)
    (volume : Decimal) (balanced : Bool) (trial : Option TrialProfile) (stage : VolumeStage) :
    Except String CheckedCost := do
  let limits := limitsOf balanced trial
  let e ← decimal entry
  let t ← decimal target
  let s ← decimal stop
  let tick ← decimal metadata.tickSize
  let reward := |round (t - e)|
  let risk := |round (s - e)|
  let minimum ← decimal metadata.minStopDistance
  require ((∀ p ∈ [e, t, s], 0 < p ∧ isTickAligned p tick) ∧
    (side = .buy → s < e ∧ e < t) ∧ (side = .sell → t < e ∧ e < s) ∧
    (isTrend trial ∨ metadata.pipSize ≠ 0 ∧
      Decimal.isInteger (round (reward / metadata.pipSize)) ∧
      Decimal.isInteger (round (risk / metadata.pipSize))) ∧
    minimum ≤ reward ∧ minimum ≤ risk ∧ reward ≤ limits.maximumTargetDistance ∧
    risk ≤ limits.maximumStopDistance ∧ limits.minimumRiskReward ≤ round (reward / risk))
    "SCALP_PROTECTION_INVALID"
  let quantity ← decimal volume
  let cost ← quickOcoCost round metadata e t quantity
  require (trial.isNone ∨ stage = .actual → netObjective round metadata ≤ cost.netPrice)
    "SCALP_NET_OBJECTIVE_UNAFFORDABLE"
  return ⟨e, reward, risk, quantity, cost⟩

def check (side : OrderSide) (entry target stop : Decimal) (metadata : SymbolMetadata)
    (volume : Decimal) (balanced : Bool := false) (trial : Option TrialProfile := none)
    (stage : VolumeStage := .actual) : Except String CheckEvidence := do
  let c ← checkCost round side entry target stop metadata volume balanced trial stage
  match trial with
  | some (.trend profile) =>
    let evidence ← trendPayoffEvidence round metadata side entry target stop volume
      profile.entryRangePoints
    require (stage = .actual → evidence.admitted) "SCALP_TREND_NET_REWARD_BELOW_RISK"
    return ⟨c.cost.evidence, .trend evidence⟩
  | some (.entry profile) =>
    require (c.reward = profile.targetDistance) "SCALP_TRIAL_TARGET_MISMATCH"
    let evidence ← trialPayoffEvidence round metadata entry target stop volume profile
    if stage = .actual then
      -- the net reward is read back from the text of the evidence
      let net ← decimal evidence.modeledBaseTargetNetPrice
      require (netObjective round metadata ≤ net) "SCALP_TRIAL_TARGET_UNAFFORDABLE"
    return ⟨c.cost.evidence, .trial evidence⟩
  | none =>
    if balanced then
      let p ← balancedPayoff round metadata c.entry c.reward c.risk c.quantity
      require (p.admitted round) "SCALP_NET_REWARD_BELOW_RISK"
      return ⟨c.cost.evidence, .balanced {
        executionReservePrice := p.reserve
        modeledNetPips := round (p.netReward / metadata.pipSize)
        modeledRoundTripCommission := round (p.fees * p.perPrice)
        modeledConversionFee := round (round (c.reward * p.perPrice) * p.conversion)
        modeledNetRewardPrice := p.netReward
        modeledStopLossPrice := p.netLoss
        modeledRoundTripFeePrice := p.fees }⟩
    else
      return ⟨c.cost.evidence, .none⟩

/-- `/^SCALP_[A-Z_]+$/`. -/
def isScalpReason (reason : String) : Bool :=
  reason.toList.take 6 = ['S', 'C', 'A', 'L', 'P', '_'] ∧ 6 < reason.toList.length ∧
    reason.toList.all fun letter => letter = '_' ∨ ('A' ≤ letter ∧ letter ≤ 'Z')

structure CommandDiagnostic where
  side : OrderSide
  volume : Decimal
  costAdmission : Option CostBalancedPayoffEvidence := none
  costEvidenceUnavailable : Bool := false
  trialAdmission : AdmissionEvidence := .none
  approved : Option CheckEvidence := none
  deriving DecidableEq

structure ScalpValidation where
  approved : Bool
  reasonCodes : List String
  evidence : List CommandDiagnostic
  deriving DecidableEq

/-- The catch of `validateDirectionalScalpCommands`. -/
def ScalpValidation.reject (reason : String) (evidence : List CommandDiagnostic) :
    ScalpValidation :=
  ⟨false, [if isScalpReason reason then reason else "SCALP_COMMAND_COST_INVALID"], evidence⟩

/-- The diagnostic of a command before its trial. -/
def costDiagnostic (c : PendingOrderCommand) (metadata : SymbolMetadata) (balanced : Bool) :
    CommandDiagnostic :=
  if balanced then
    match costBalancedPayoffEvidence round metadata c.entryPrice c.takeProfit c.stopLoss
        c.volume with
    | .ok evidence => { side := c.side, volume := c.volume, costAdmission := some evidence }
    | .error _ => { side := c.side, volume := c.volume, costEvidenceUnavailable := true }
  else
    { side := c.side, volume := c.volume }

def isRetest : Option TrialProfile → Bool
  | some (.trend profile) => profile.entryStyle = .retestLimit
  | _ => false

/-- The evidence of the trial of a command. -/
def trialAdmission (c : PendingOrderCommand) (metadata : SymbolMetadata) :
    Option TrialProfile → Except String AdmissionEvidence
  | none => .ok .none
  | some (.entry profile) => do
    require (c.entryRangePoints = some profile.entryRangePoints) "SCALP_TRIAL_RANGE_MISMATCH"
    let evidence ← trialPayoffEvidence round metadata c.entryPrice c.takeProfit c.stopLoss c.volume
      profile
    return .trial evidence
  | some (.trend profile) => do
    require (c.entryRangePoints =
      if profile.entryStyle = .retestLimit then none else some profile.entryRangePoints)
      "SCALP_TRIAL_RANGE_MISMATCH"
    let evidence ← trendPayoffEvidence round metadata c.side c.entryPrice c.takeProfit c.stopLoss
      c.volume profile.entryRangePoints
    return .trend evidence

def validateDirectionalScalpCommands (commands : List PendingOrderCommand)
    (metadata : SymbolMetadata) (balanced : Bool := false) (trial : Option TrialProfile := none) :
    ScalpValidation :=
  match commands with
  | [c] =>
    if c.executionOrderType ≠ some (if isRetest trial then .limit else .stopLimit) ∨
        c.timeInForce ≠ some .gtd then
      .reject "SCALP_LIFETIME_INVALID" []
    else
      let diagnostic := costDiagnostic round c metadata balanced
      -- the diagnostic is pushed once for each of the two, and amended in place
      let pushed (diagnostic : CommandDiagnostic) (ofTrial : Bool) :=
        (if balanced then [diagnostic] else []) ++ (if ofTrial then [diagnostic] else [])
      match trialAdmission round c metadata trial with
      | .error reason => .reject reason (pushed diagnostic false)
      | .ok admission =>
        let diagnostic := { diagnostic with trialAdmission := admission }
        match check round c.side c.entryPrice c.takeProfit c.stopLoss metadata c.volume balanced
            trial with
        | .error reason => .reject reason (pushed diagnostic trial.isSome)
        | .ok approved =>
          let diagnostic := { diagnostic with approved := some approved }
          ⟨true, [], if balanced ∨ trial.isSome then pushed diagnostic trial.isSome
            else [diagnostic]⟩
  | _ => .reject "SCALP_ONE_COMMAND_REQUIRED" []

/-! ### The text of the net reward -/

/-- The price bound of a payoff, rounded at each step. -/
def boundOf (metadata : SymbolMetadata)
    (entry reward risk reservePoints entryPoints : Decimal) : Decimal :=
  round (round (round (round (entry + round (metadata.tickSize * entryPoints)) + reward) + risk) +
    round (metadata.tickSize * reservePoints))

/-- A reward less its conversion fee, two commissions and a reserve, rounded at each step. -/
def netRewardOf (metadata : SymbolMetadata) (commission reward quantity reservePoints : Decimal) :
    Decimal :=
  let conversion := round (metadata.commission.pnlConversionFeeRate / 100)
  let perPrice := round (round (metadata.tickValue * quantity) / metadata.tickSize)
  let fees := round (round (commission * 2) / perPrice)
  round (round (round (reward * round (1 - conversion)) - fees) -
    round (metadata.tickSize * reservePoints))

end

variable {metadata : SymbolMetadata} {entry reward risk quantity reservePoints
  entryPoints : Decimal} {payoff : Payoff} {round : ℚ → ℚ}

theorem balancedPayoff_netReward (h : balancedPayoff round metadata entry reward risk quantity
    reservePoints entryPoints = .ok payoff) : ∃ commission,
      oneWayCommission round metadata
        (boundOf round metadata entry reward risk reservePoints entryPoints) quantity =
          .ok commission ∧
      payoff.netReward = netRewardOf round metadata commission reward quantity reservePoints := by
  simp only [balancedPayoff, bind_ok, decimal_ok, require_ok, pure_ok] at h
  obtain ⟨_, ⟨rfl, -⟩, _, ⟨rfl, -⟩, _, -, commission, hcommission, _, ⟨rfl, -⟩, _, -, rfl⟩ := h
  exact ⟨commission, hcommission, rfl⟩

/-- The net reward that the evidence of a trial reports. -/
theorem trialPayoffEvidence_netReward {target stop volume : Decimal} {profile : EntryProfile}
    {evidence : TrialPayoffEvidence}
    (h : trialPayoffEvidence round metadata entry target stop volume profile = .ok evidence) :
    ∃ commission,
      oneWayCommission round metadata (boundOf round metadata entry |round (target - entry)|
        |round (stop - entry)| profile.baseExitReservePoints profile.entryRangePoints) volume =
          .ok commission ∧
      evidence.modeledBaseTargetNetPrice = netRewardOf round metadata commission
        |round (target - entry)| volume profile.baseExitReservePoints := by
  simp only [trialPayoffEvidence, bind_ok, decimal_ok, pure_ok] at h
  obtain ⟨_, -, _, ⟨rfl, -⟩, _, ⟨rfl, -⟩, _, ⟨rfl, -⟩, _, ⟨rfl, -⟩, base, hbase, _, -, rfl⟩ := h
  exact balancedPayoff_netReward hbase

/-- The rounding of the code. -/
def forty : ℚ → ℚ := Significant.truncate Decimal.precision

/-- The net objective is exact. -/
theorem netObjective_exact (h : isDecimalText metadata.pipSize) :
    netObjective forty metadata = netObjective id metadata := by
  obtain ⟨n, hn, hpip⟩ := isDecimalText_iff.mp h
  have hunits : metadata.pipSize * quickOco.netTargetPips = ((8 * n : ℕ) : ℚ) / 10 ^ 12 := by
    rw [hpip, quickOco]
    push_cast
    ring
  rw [netObjective, netObjective, hunits, id]
  exact Decimal.exact_nat (8 * n) 12 rfl (by omega)

theorem checkCost_pip {side : OrderSide} {target stop volume : Decimal} {balanced : Bool}
    {trial : Option TrialProfile} {stage : VolumeStage} {cost : CheckedCost}
    (h : checkCost round side entry target stop metadata volume balanced trial stage = .ok cost) :
    isDecimalText metadata.pipSize := by
  simp only [checkCost, quickOcoCost, bind_ok, decimal_ok, require_ok, pure_ok] at h
  obtain ⟨_, -, _, -, _, -, _, -, _, -, _, -, _, -, _, ⟨_, -, _, ⟨rfl, hpip⟩, -⟩, -⟩ := h
  exact hpip

/-- A command of a trial up to the comparison of its net reward. -/
structure Compared (c : PendingOrderCommand) (metadata : SymbolMetadata) (profile : EntryProfile)
    (cost : CheckedCost) (evidence : TrialPayoffEvidence) : Prop where
  lifetime : c.executionOrderType = some .stopLimit ∧ c.timeInForce = some .gtd ∧
    c.entryRangePoints = some profile.entryRangePoints
  costOk : checkCost forty c.side c.entryPrice c.takeProfit c.stopLoss metadata c.volume false
    (some (.entry profile)) .actual = .ok cost
  target : cost.reward = profile.targetDistance
  evidenceOk : trialPayoffEvidence forty metadata c.entryPrice c.takeProfit c.stopLoss c.volume
    profile = .ok evidence

/-- The outcome of a comparison of the net reward with the net objective. -/
def comparison (metadata : SymbolMetadata) (netReward : Decimal) (evidence : CheckEvidence) :
    Except String CheckEvidence :=
  if netObjective id metadata ≤ netReward then .ok evidence
  else .error "SCALP_TRIAL_TARGET_UNAFFORDABLE"

/-- The exact comparison for a command: its base net reward without rounding. -/
def exactComparison (c : PendingOrderCommand) (metadata : SymbolMetadata) (profile : EntryProfile)
    (evidence : CheckEvidence) : Except String CheckEvidence := do
  let exact ← balancedPayoff id metadata c.entryPrice |c.takeProfit - c.entryPrice|
    |c.stopLoss - c.entryPrice| c.volume profile.baseExitReservePoints profile.entryRangePoints
  comparison metadata exact.netReward evidence

def reasonCodesOf : Except String CheckEvidence → List String
  | .ok _ => []
  | .error reason => [reason]

theorem comparison_eq_iff {netReward netReward' : Decimal} (evidence : CheckEvidence) :
    comparison metadata netReward evidence = comparison metadata netReward' evidence ↔
      (netObjective id metadata ≤ netReward ↔ netObjective id metadata ≤ netReward') := by
  rw [comparison, comparison]
  by_cases hle : netObjective id metadata ≤ netReward <;>
    by_cases hle' : netObjective id metadata ≤ netReward' <;> simp [hle, hle']

theorem comparison_ne_invalid (metadata : SymbolMetadata) (netReward : Decimal)
    (evidence : CheckEvidence) :
    comparison metadata netReward evidence ≠ .error "INVALID_DECIMAL" := by
  rw [comparison]
  split <;> simp

section

variable {c : PendingOrderCommand} {profile : EntryProfile} {cost : CheckedCost}
  {evidence : TrialPayoffEvidence}

/-- The check compares what it reads back. -/
theorem check_compared (h : Compared c metadata profile cost evidence) :
    check forty c.side c.entryPrice c.takeProfit c.stopLoss metadata c.volume false
      (some (.entry profile)) =
    if isDecimalText evidence.modeledBaseTargetNetPrice then
      comparison metadata evidence.modeledBaseTargetNetPrice ⟨cost.cost.evidence, .trial evidence⟩
    else .error "INVALID_DECIMAL" := by
  have hobjective := netObjective_exact (checkCost_pip h.costOk)
  rw [check, h.costOk, ok_bind]
  simp only [require_eq h.target, ok_bind, h.evidenceOk, if_true]
  by_cases htext : isDecimalText evidence.modeledBaseTargetNetPrice
  · rw [decimal_eq _ htext, ok_bind, hobjective, if_pos htext, comparison]
    split
    · next hle => rw [require_eq hle]; rfl
    · next hlt => rw [require, if_neg hlt]; rfl
  · rw [decimal, if_neg htext, if_neg htext]
    rfl

theorem isScalpReason_target : isScalpReason "SCALP_TRIAL_TARGET_UNAFFORDABLE" := by
  decide +kernel

theorem not_isScalpReason_decimal : ¬ isScalpReason "INVALID_DECIMAL" := by
  decide +kernel

theorem trialAdmission_compared (h : Compared c metadata profile cost evidence) :
    trialAdmission forty c metadata (some (.entry profile)) = .ok (.trial evidence) := by
  rw [trialAdmission, require_eq h.lifetime.2.2, ok_bind, h.evidenceOk]
  rfl

/-- The codes of a command are those of its check. -/
theorem validate_reasonCodes (h : Compared c metadata profile cost evidence) :
    (validateDirectionalScalpCommands forty [c] metadata false
      (some (.entry profile))).reasonCodes =
    match check forty c.side c.entryPrice c.takeProfit c.stopLoss metadata c.volume false
        (some (.entry profile)) with
    | .ok _ => []
    | .error reason =>
      [if isScalpReason reason then reason else "SCALP_COMMAND_COST_INVALID"] := by
  have hlifetime : ¬ (c.executionOrderType ≠ some (if isRetest (some (.entry profile)) then .limit
      else .stopLimit) ∨ c.timeInForce ≠ some .gtd) := by
    simp [h.lifetime.1, h.lifetime.2.1, isRetest]
  simp only [validateDirectionalScalpCommands]
  rw [if_neg hlifetime]
  simp only [trialAdmission_compared h]
  cases check forty c.side c.entryPrice c.takeProfit c.stopLoss metadata c.volume false
      (some (.entry profile)) with
  | ok approved => rfl
  | error reason => rfl

end

namespace AdmissionSample

/-- Gold with a least commission of a dollar. -/
def least : SymbolMetadata :=
  { Risk.GridSample.metadata with commission := ⟨.usdPerMillionUsd, 30, 1, .currency, "USD", 0⟩ }

def dollar : EntryProfile := ⟨1, 30, 5, 65⟩

/-- A buy of three lots with a target of a dollar. -/
def command : PendingOrderCommand where
  executionOrderType := some .stopLimit
  idempotencyKey := "key"
  analysisId := "analysis"
  orderGroupId := "group"
  clientOrderId := "client"
  symbol := "XAUUSD"
  side := .buy
  volume := 3
  entryPrice := 2000
  stopLoss := 1998
  takeProfit := 2001
  expiresAt := some 0
  timeInForce := some .gtd
  strategyLabel := "scalp"
  entryRangePoints := some 30

/-- The checks before the comparison, on a command of the profile. -/
theorem compared (symbol : SymbolMetadata) (hcost : (checkCost forty .buy 2000 2001 1998 symbol 3
      false (some (.entry dollar)) .actual).map CheckedCost.reward = .ok 1)
    (hevidence : (trialPayoffEvidence forty symbol 2000 2001 1998 3 dollar).map
      TrialPayoffEvidence.volume = .ok 3) :
    ∃ cost evidence, Compared command symbol dollar cost evidence := by
  obtain ⟨cost, hok, hreward⟩ := map_ok.mp hcost
  obtain ⟨evidence, hfound, -⟩ := map_ok.mp hevidence
  exact ⟨cost, evidence, ⟨rfl, rfl, rfl⟩, hok, hreward, hfound⟩

end AdmissionSample

end ScalpingBot.Candidates
