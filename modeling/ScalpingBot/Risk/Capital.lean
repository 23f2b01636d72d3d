import Mathlib.Data.List.Pairwise
import ScalpingBot.Market
import ScalpingBot.Library.Checked

/-! Account-wide capital risk (packages/risk-engine/src/capital.ts) and the store that carries it
    from one update to the next (apps/execution-service/src/capital-risk-store.ts). -/

namespace ScalpingBot.Risk

/-! ### One update -/

/-- `"0" | "0.25" | "0.5" | "1"`. -/
inductive RiskMultiplier where | zero | quarter | half | one
  deriving DecidableEq

def RiskMultiplier.value : RiskMultiplier → Decimal
  | .zero => 0
  | .quarter => 1 / 4
  | .half => 1 / 2
  | .one => 1

/-- `Decimal.min(multiplier, input.previous.riskMultiplier)`. -/
def RiskMultiplier.min (a b : RiskMultiplier) : RiskMultiplier :=
  if a.value ≤ b.value then a else b

structure CapitalState where
  referenceEquity : Decimal
  highWaterEquity : Decimal
  adjustedEquity : Decimal
  cumulativeNetFlows : Decimal
  drawdownPercent : Decimal
  riskMultiplier : RiskMultiplier
  lockedOut : Bool
  deriving DecidableEq

structure CapitalRiskInput where
  equity : Decimal
  cumulativeNetFlows : Decimal
  dailyLossPercent : Decimal
  previous : Option CapitalState
  referenceEquity : Decimal
  observedHighWater : Decimal

/-- `enforcesLossLimits`. -/
def enforcesLossLimits (mode : TradingMode) : Bool := mode ≠ .demo

/-- `setupRiskPercentFor`. -/
def setupRiskPercentFor (mode : TradingMode) : Decimal := if mode = .demo then 5 else 1

/-- `availableCapitalRiskPercent`: the account-wide remaining loss capacity. -/
def availableCapitalRiskPercent (equity dailyRemaining : Decimal) : Except String Decimal := do
  let current ← decimal equity
  require (0 < current) "CAPITAL_EQUITY_INVALID"
  let daily ← decimal dailyRemaining
  let remaining := min daily current
  return ((remaining.div current).times 100).toDecimalPlacesDown 10

/-- What `DailyRiskStore.reconcile` returns. -/
structure DailyRiskResult where
  lockedOut : Bool
  lossPercent : Decimal
  remainingLossBudget : Decimal
  deriving DecidableEq

structure CapitalAdmission where
  lockedOut : Bool
  riskMultiplier : RiskMultiplier
  riskPercentCap : Decimal

def capitalAdmission (mode : TradingMode) (equity : Decimal) (daily : DailyRiskResult)
    (capital : CapitalState) : Except String CapitalAdmission := do
  let dailyCap ← availableCapitalRiskPercent equity daily.remainingLossBudget
  let _ ← decimal daily.lossPercent
  return if enforcesLossLimits mode then
    ⟨daily.lockedOut || capital.lockedOut, capital.riskMultiplier, dailyCap⟩
  else ⟨false, .one, setupRiskPercentFor mode⟩

/-- `MONEY_MANAGEMENT.dailyLossLimitPercent`. -/
def dailyLossLimitPercent : Decimal := 5

/-- `MONEY_MANAGEMENT.drawdownLimitPercent`. -/
def drawdownLimitPercent : Decimal := 5

/-- The multiplier of the two ladders alone. -/
def ladder (locked : Bool) (drawdown dailyBudgetUsed : Decimal) : RiskMultiplier :=
  if locked then .zero
  else if 4 ≤ drawdown ∨ 3 / 4 ≤ dailyBudgetUsed then .quarter
  else if 2 ≤ drawdown ∨ 1 / 2 ≤ dailyBudgetUsed then .half
  else .one

/-- Hysteresis: recover only below both thresholds. -/
def hysteresis (locked : Bool) (drawdown dailyBudgetUsed : Decimal) (previous : Option CapitalState)
    (multiplier : RiskMultiplier) : RiskMultiplier :=
  match previous with
  | some state =>
    if ¬ locked ∧ ¬ (drawdown < 1 ∧ dailyBudgetUsed < 1 / 4) then multiplier.min state.riskMultiplier
    else multiplier
  | none => multiplier

def capitalRisk (input : CapitalRiskInput) : Except String CapitalState := do
  let equity ← decimal input.equity
  let flows ← signedDecimal input.cumulativeNetFlows
  let adjusted := equity.minus flows
  let reference ← decimal ((input.previous.map (·.referenceEquity)).getD input.referenceEquity)
  let observed ← decimal input.observedHighWater
  let highWater ← decimal ((input.previous.map (·.highWaterEquity)).getD input.referenceEquity)
  let high := max reference (max observed (max highWater adjusted))
  require (0 < equity ∧ 0 < reference ∧ 0 ≤ adjusted) "CAPITAL_STATE_INVALID"
  let drawdown := ((high.minus adjusted).div high).times 100
  let daily ← decimal input.dailyLossPercent
  let dailyBudgetUsed := daily.div dailyLossLimitPercent
  let locked := input.previous.any (·.lockedOut) || decide (drawdownLimitPercent ≤ drawdown)
  return {
    referenceEquity := reference
    highWaterEquity := high
    adjustedEquity := adjusted
    cumulativeNetFlows := flows
    drawdownPercent := drawdown.toDecimalPlacesUp 8
    riskMultiplier := hysteresis locked drawdown dailyBudgetUsed input.previous
      (ladder locked drawdown dailyBudgetUsed)
    lockedOut := locked
  }

/-! ### The persisted state -/

/-- The `CHECK` constraints of capital_risk_state. -/
def CapitalState.Storable (s : CapitalState) : Prop :=
  0 < s.referenceEquity ∧ 0 < s.highWaterEquity ∧ 0 ≤ s.adjustedEquity ∧ 0 ≤ s.drawdownPercent

instance (s : CapitalState) : Decidable s.Storable :=
  inferInstanceAs (Decidable (0 < s.referenceEquity ∧ 0 < s.highWaterEquity ∧
    0 ≤ s.adjustedEquity ∧ 0 ≤ s.drawdownPercent))

/-- The row of an account. -/
structure CapitalRiskRow where
  state : CapitalState
  observedAt : ℕ
  storable : state.Storable

structure CapitalReconciliation where
  account : AccountState
  netFlowsSinceReference : Decimal
  dailyLossPercent : Decimal
  now : ℕ

/-- The observation is certain and at most ten seconds old: its instant. -/
def CapitalReconciliation.observedAt (input : CapitalReconciliation) : Except String ℕ :=
  match input.account.reconciledAt with
  | some instant =>
    if input.account.certain ∧ instant ≤ input.now ∧ input.now ≤ instant + 10_000 then .ok instant
    else .error "CAPITAL_ACCOUNT_STALE_OR_UNCERTAIN"
  | none => .error "CAPITAL_ACCOUNT_STALE_OR_UNCERTAIN"

/-- `DO UPDATE SET`: an existing row keeps its reference and its lock. -/
def CapitalState.merged (state : CapitalState) : Option CapitalRiskRow → CapitalState
  | some row => { state with
      referenceEquity := row.state.referenceEquity
      lockedOut := row.state.lockedOut || state.lockedOut }
  | none => state

/-- The upsert. -/
def CapitalState.upsert (state : CapitalState) (row : Option CapitalRiskRow) (observedAt : ℕ) :
    Except String CapitalRiskRow :=
  if h : (state.merged row).Storable then .ok ⟨state.merged row, observedAt, h⟩
  else .error "CHECK_VIOLATION"

/-- `CapitalRiskStore.reconcile`: what it returns and the row it commits. The calls of an account
    follow one another, since each holds the account's advisory lock until it ends. -/
def reconcile (row : Option CapitalRiskRow) (input : CapitalReconciliation) :
    Except String (CapitalState × CapitalRiskRow) := do
  let observedAt ← input.observedAt
  require (∀ r ∈ row, r.observedAt ≤ observedAt) "CAPITAL_OBSERVATION_REGRESSED"
  let previous := row.map (·.state)
  let state ← capitalRisk {
    equity := input.account.equity
    cumulativeNetFlows := if previous.isSome then input.netFlowsSinceReference else 0
    dailyLossPercent := input.dailyLossPercent
    previous := previous
    referenceEquity := input.account.equity
    observedHighWater := (previous.map (·.highWaterEquity)).getD input.account.equity
  }
  let committed ← state.upsert row observedAt
  return (state, committed)

/-! ### What one update establishes -/

/-- The drawdown in percent, before any rounding, is below `percent`. -/
def CapitalState.DrawdownBelow (s : CapitalState) (percent : ℚ) : Prop :=
  (s.highWaterEquity - s.adjustedEquity) / s.highWaterEquity * 100 < percent

/-- A computed drawdown is between nothing and everything. -/
theorem drawdown_mem {high adjusted : Decimal} (hhigh : 0 < high) (hadjusted : 0 ≤ adjusted)
    (hle : adjusted ≤ high) :
    0 ≤ ((high.minus adjusted).div high).times 100 ∧
      ((high.minus adjusted).div high).times 100 ≤ 100 := by
  have hsub : 0 ≤ high - adjusted := sub_nonneg.mpr hle
  have hlost : 0 ≤ high.minus adjusted := Significant.truncate_nonneg hsub
  have hlost' : high.minus adjusted ≤ high := by
    have := Significant.truncate_le (p := Decimal.precision) hsub
    rw [Decimal.minus]
    linarith
  have hratio : 0 ≤ high.minus adjusted / high := div_nonneg hlost hhigh.le
  have hdiv : 0 ≤ (high.minus adjusted).div high := Significant.truncate_nonneg hratio
  have hdiv' : (high.minus adjusted).div high ≤ 1 :=
    (Decimal.div_le hratio).trans ((div_le_one hhigh).mpr hlost')
  have hprod : 0 ≤ (high.minus adjusted).div high * 100 := by positivity
  refine ⟨Decimal.times_nonneg hprod, (Decimal.times_le hprod).trans ?_⟩
  linarith

/-- A quotient of at least `1 / 100` is computed as one percent at least. -/
theorem one_le_drawdown {lost high : Decimal} (h : 1 / 100 ≤ lost / high) :
    1 ≤ (lost.div high).times 100 := by
  have hdiv : 1 / 100 ≤ lost.div high :=
    Significant.le_truncate (n := 1) (k := 2) (by decide) (by norm_num) (by norm_num) (by decide) h
  refine Significant.le_truncate (n := 1) (k := 0) (by decide) (by norm_num) (by norm_num)
    (by decide) ?_
  linarith

/-- The difference of two texts of which the second may be signed is exact. -/
theorem minus_eq {a b : Decimal} (ha : isDecimalText a) (hb : isSignedDecimalText b) :
    ∃ n : ℤ, |n| < 2 * 10 ^ 26 ∧ a.minus b = n / 10 ^ 10 ∧ a.minus b = a - b := by
  obtain ⟨m, hm, rfl⟩ := isDecimalText_iff.mp ha
  obtain ⟨k, hk, rfl⟩ := isSignedDecimalText_iff.mp hb
  have hbound : |(m : ℤ) - k| < 2 * 10 ^ 26 := by
    rw [abs_lt] at hk ⊢
    omega
  have hval : ((m : ℚ) / 10 ^ 10 - k / 10 ^ 10) = ((m - k : ℤ) : ℚ) / 10 ^ 10 := by
    push_cast
    ring
  have hexact := Decimal.exact (m - k : ℤ) 10 hval (hbound.trans (by norm_num))
  exact ⟨m - k, hbound, by rw [Decimal.minus, hexact, hval], hexact⟩

theorem RiskMultiplier.min_le_right (a b : RiskMultiplier) : (a.min b).value ≤ b.value := by
  rw [RiskMultiplier.min]
  split
  · assumption
  · exact le_rfl

theorem hysteresis_zero {drawdown dailyBudgetUsed : Decimal} {previous : Option CapitalState} :
    hysteresis true drawdown dailyBudgetUsed previous (ladder true drawdown dailyBudgetUsed) =
      .zero := by
  cases previous <;> simp [hysteresis, ladder]

theorem RiskMultiplier.value_nonneg (m : RiskMultiplier) : 0 ≤ m.value := by
  cases m <;> norm_num [RiskMultiplier.value]

/-- The multiplier exceeds the previous one only below both recovery thresholds. -/
theorem hysteresis_rises {locked : Bool} {drawdown dailyBudgetUsed : Decimal} {p : CapitalState}
    (h : p.riskMultiplier.value < (hysteresis locked drawdown dailyBudgetUsed (some p)
      (ladder locked drawdown dailyBudgetUsed)).value) :
    drawdown < 1 ∧ dailyBudgetUsed < 1 / 4 := by
  by_contra hnot
  cases locked with
  | true =>
    rw [hysteresis_zero] at h
    exact absurd h (not_lt.mpr p.riskMultiplier.value_nonneg)
  | false =>
    simp only [hysteresis, hnot, Bool.false_eq_true, not_false_eq_true, and_self, if_true] at h
    exact absurd h (not_lt.mpr (RiskMultiplier.min_le_right _ _))

/-- The used part of the daily budget is computed exactly. -/
theorem fifth_lt {daily : Decimal} (hdaily : isDecimalText daily)
    (h : daily.div dailyLossLimitPercent < 1 / 4) : daily < dailyLossLimitPercent / 4 := by
  obtain ⟨n, hn, rfl⟩ := isDecimalText_iff.mp hdaily
  have hexact : Decimal.div (n / 10 ^ 10) dailyLossLimitPercent = n / 10 ^ 10 / 5 := by
    refine Decimal.exact_nat (2 * n) 11 ?_ (by omega)
    rw [dailyLossLimitPercent]
    push_cast
    ring
  rw [hexact] at h
  rw [dailyLossLimitPercent]
  linarith

/-- What holds of a new state, given the one before it and the daily loss. -/
structure Updated (input : CapitalRiskInput) (state : CapitalState) : Prop where
  adjusted : state.adjustedEquity = input.equity - input.cumulativeNetFlows
  adjusted_nonneg : 0 ≤ state.adjustedEquity
  reference_pos : 0 < state.referenceEquity
  reference : ∀ p ∈ input.previous, state.referenceEquity = p.referenceEquity
  high_pos : 0 < state.highWaterEquity
  adjusted_le : state.adjustedEquity ≤ state.highWaterEquity
  high_le : ∀ p ∈ input.previous, p.highWaterEquity ≤ state.highWaterEquity
  drawdown : 0 ≤ state.drawdownPercent ∧ state.drawdownPercent ≤ 100
  locked : ∀ p ∈ input.previous, p.lockedOut → state.lockedOut
  locked_zero : state.lockedOut → state.riskMultiplier = .zero
  recovered : ∀ p ∈ input.previous, p.riskMultiplier.value < state.riskMultiplier.value →
    state.DrawdownBelow 1 ∧ input.dailyLossPercent < dailyLossLimitPercent / 4

/-- The values between which the high-water mark is chosen have ten decimals. -/
theorem max_units {a b : Decimal} {bound : ℕ} (ha : ∃ n : ℕ, n < bound ∧ a = n / 10 ^ 10)
    (hb : ∃ n : ℕ, n < bound ∧ b = n / 10 ^ 10) :
    ∃ n : ℕ, n < bound ∧ max a b = n / 10 ^ 10 := by
  rcases max_choice a b with h | h <;> rw [h]
  · exact ha
  · exact hb

theorem text_units {a : Decimal} (h : isDecimalText a) :
    ∃ n : ℕ, n < 2 * 10 ^ 26 ∧ a = n / 10 ^ 10 := by
  obtain ⟨n, hn, rfl⟩ := isDecimalText_iff.mp h
  exact ⟨n, by omega, rfl⟩

theorem minus_units {a b : Decimal} (ha : ∃ n : ℕ, n < 2 * 10 ^ 26 ∧ a = n / 10 ^ 10)
    (hb : ∃ n : ℕ, n < 2 * 10 ^ 26 ∧ b = n / 10 ^ 10) : a.minus b = a - b := by
  obtain ⟨n, hn, rfl⟩ := ha
  obtain ⟨m, hm, rfl⟩ := hb
  refine Decimal.exact (n - m) 10 ?_ ?_
  · push_cast
    ring
  · rw [abs_lt]
    omega

theorem capitalRisk_ok {input : CapitalRiskInput} {state : CapitalState}
    (h : capitalRisk input = .ok state) : Updated input state := by
  simp only [capitalRisk, bind_ok, decimal_ok, signedDecimal_ok, require_ok, pure_ok] at h
  obtain ⟨equity, ⟨rfl, hequity⟩, flows, ⟨rfl, hflows⟩, reference, ⟨href, hrefText⟩, observed,
    ⟨rfl, hobserved⟩, highWater, ⟨hwater, hwaterText⟩, _, ⟨hequityPos, hrefPos, hadj⟩, daily,
    ⟨rfl, hdaily⟩, rfl⟩ := h
  rw [href] at hrefText
  rw [hwater] at hwaterText
  obtain ⟨k, hk, hval, hexact⟩ := minus_eq hequity hflows
  have hadjUnits : ∃ n : ℕ, n < 2 * 10 ^ 26 ∧
      input.equity.minus input.cumulativeNetFlows = n / 10 ^ 10 := by
    have hk0 : 0 ≤ k := by
      by_contra hneg
      have hneg' : (k : ℚ) < 0 := by exact_mod_cast not_le.mp hneg
      rw [hval] at hadj
      exact absurd (div_neg_of_neg_of_pos hneg' (by norm_num)) (not_lt.mpr hadj)
    obtain ⟨n, rfl⟩ := Int.eq_ofNat_of_zero_le hk0
    rw [abs_of_nonneg hk0] at hk
    exact ⟨n, by omega, by rw [hval]; push_cast; rfl⟩
  set adjusted := input.equity.minus input.cumulativeNetFlows with hadjusted
  set high := max reference (max input.observedHighWater (max highWater adjusted)) with hhigh
  have hhighPos : 0 < high := hrefPos.trans_le (le_max_left _ _)
  have hadjLe : adjusted ≤ high :=
    (le_max_right _ _).trans ((le_max_right _ _).trans (le_max_right _ _))
  have hdrawdown := drawdown_mem hhighPos hadj hadjLe
  have hlost : high.minus adjusted = high - adjusted :=
    minus_units (max_units (text_units hrefText)
      (max_units (text_units hobserved) (max_units (text_units hwaterText) hadjUnits))) hadjUnits
  refine ⟨hexact, hadj, hrefPos, ?_, hhighPos, hadjLe, ?_,
    Decimal.toDecimalPlacesUp_le hdrawdown.1 (by exact_mod_cast hdrawdown.2), ?_, ?_, ?_⟩
  · rintro p hp
    simp [Option.mem_def.mp hp] at href
    exact href.symm
  · rintro p hp
    simp [Option.mem_def.mp hp] at hwater
    rw [hwater]
    exact (le_max_left _ _).trans ((le_max_right _ _).trans (le_max_right _ _))
  · rintro p hp hlocked
    simp [Option.mem_def.mp hp, hlocked]
  · rintro hlocked
    simp only at hlocked ⊢
    rw [hlocked]
    exact hysteresis_zero
  · rintro p hp hless
    simp only [Option.mem_def.mp hp] at hless
    obtain ⟨hbelow, hused⟩ := hysteresis_rises hless
    refine ⟨?_, ?_⟩
    · rw [CapitalState.DrawdownBelow]
      by_contra hnot
      refine absurd hbelow (not_lt.mpr (one_le_drawdown ?_))
      rw [hlost]
      linarith
    · exact fifth_lt hdaily hused

/-! ### Runs -/

theorem Updated.merged_eq {input : CapitalRiskInput} {state : CapitalState}
    {row : Option CapitalRiskRow} (h : Updated input state)
    (hprevious : input.previous = row.map (·.state)) : state.merged row = state := by
  cases row with
  | none => rfl
  | some row =>
    have hmem : row.state ∈ input.previous := by simp [hprevious]
    have hlocked : (row.state.lockedOut || state.lockedOut) = state.lockedOut := by
      cases hrow : row.state.lockedOut
      · rfl
      · rw [h.locked row.state hmem hrow]
        rfl
    simp only [CapitalState.merged, ← h.reference row.state hmem, hlocked]

/-- A new state passes the constraints of the table, and the upsert stores it as it is. -/
theorem Updated.upsert_ok {input : CapitalRiskInput} {state : CapitalState}
    {row : Option CapitalRiskRow} (observedAt : ℕ) (h : Updated input state)
    (hprevious : input.previous = row.map (·.state)) :
    ∃ committed, state.upsert row observedAt = .ok committed ∧ committed.state = state := by
  have hmerged := h.merged_eq hprevious
  have hstorable : (state.merged row).Storable := by
    rw [hmerged]
    exact ⟨h.reference_pos, h.high_pos, h.adjusted_nonneg, h.drawdown.1⟩
  exact ⟨_, dif_pos hstorable, hmerged⟩

/-- A committed update. -/
structure CapitalUpdate where
  previous : Option CapitalRiskRow
  input : CapitalReconciliation
  row : CapitalRiskRow

/-- The updates that a sequence of calls commits: a call that fails leaves the row as it is. -/
def updates : Option CapitalRiskRow → List CapitalReconciliation → List CapitalUpdate
  | _, [] => []
  | row, input :: inputs => match reconcile row input with
    | .ok (_, committed) => ⟨row, input, committed⟩ :: updates (some committed) inputs
    | .error _ => updates row inputs

/-- The flows since the reference; there are none before it exists. -/
def CapitalUpdate.flows (u : CapitalUpdate) : Decimal :=
  if u.previous.isSome then u.input.netFlowsSinceReference else 0

/-- What one committed update establishes. -/
structure CapitalUpdate.Sound (u : CapitalUpdate) : Prop where
  adjusted : u.row.state.adjustedEquity = u.input.account.equity - u.flows
  adjusted_le : u.row.state.adjustedEquity ≤ u.row.state.highWaterEquity
  drawdown : 0 ≤ u.row.state.drawdownPercent ∧ u.row.state.drawdownPercent ≤ 100
  recovered : ∀ p ∈ u.previous, p.state.riskMultiplier.value < u.row.state.riskMultiplier.value →
    u.row.state.DrawdownBelow 1 ∧ u.input.dailyLossPercent < dailyLossLimitPercent / 4

/-- How an earlier row of a run compares with a later one. -/
structure Onward (earlier later : CapitalRiskRow) : Prop where
  high_le : earlier.state.highWaterEquity ≤ later.state.highWaterEquity
  locked : earlier.state.lockedOut →
    later.state.lockedOut ∧ later.state.riskMultiplier = .zero

theorem Onward.trans {a b c : CapitalRiskRow} (hab : Onward a b) (hbc : Onward b c) :
    Onward a c := by
  refine ⟨hab.high_le.trans hbc.high_le, ?_⟩
  intro hlocked
  exact hbc.locked (hab.locked hlocked).1

/-- One call of the store. -/
theorem reconcile_ok {row : Option CapitalRiskRow} {input : CapitalReconciliation}
    {state : CapitalState} {committed : CapitalRiskRow}
    (h : reconcile row input = .ok (state, committed)) :
    committed.state = state ∧ (⟨row, input, committed⟩ : CapitalUpdate).Sound ∧
      ∀ r ∈ row, Onward r committed := by
  simp only [reconcile, bind_ok, require_ok, pure_ok, Prod.mk.injEq] at h
  obtain ⟨_, -, _, -, state, hstate, committed, hcommitted, rfl, rfl⟩ := h
  have hupdated := capitalRisk_ok hstate
  obtain ⟨stored, hstored, heq⟩ := hupdated.upsert_ok _ rfl
  obtain rfl : stored = committed := by
    rw [hstored] at hcommitted
    exact Except.ok.inj hcommitted
  refine ⟨heq, ⟨?_, ?_, ?_, ?_⟩, ?_⟩
  · simpa [heq, CapitalUpdate.flows] using hupdated.adjusted
  · simpa [heq] using hupdated.adjusted_le
  · simpa [heq] using hupdated.drawdown
  · rintro p hp hless
    simp only [heq] at hless ⊢
    exact hupdated.recovered p.state (by simpa using ⟨p, hp, rfl⟩) hless
  · rintro r hr
    have hmem : r.state ∈ row.map (·.state) := Option.mem_map_of_mem _ hr
    refine ⟨?_, ?_⟩
    · rw [heq]
      exact hupdated.high_le r.state hmem
    · intro hlocked
      rw [heq]
      exact ⟨hupdated.locked r.state hmem hlocked,
        hupdated.locked_zero (hupdated.locked r.state hmem hlocked)⟩

theorem updates_onward (row : Option CapitalRiskRow) (inputs : List CapitalReconciliation) :
    (row.toList ++ (updates row inputs).map (·.row)).Pairwise Onward := by
  induction inputs generalizing row with
  | nil => cases row <;> simp [updates]
  | cons input inputs ih =>
    rw [updates]
    split
    · next state committed hcall =>
      obtain ⟨-, -, honward⟩ := reconcile_ok hcall
      have hpairs := ih (some committed)
      cases row with
      | none => exact hpairs
      | some row =>
        have hfirst := honward row rfl
        refine List.pairwise_cons.mpr ⟨?_, hpairs⟩
        intro later hlater
        rcases List.mem_cons.mp hlater with rfl | hrest
        · exact hfirst
        · exact hfirst.trans (List.rel_of_pairwise_cons hpairs hrest)
    · exact ih row

theorem updates_each {row : Option CapitalRiskRow} {inputs : List CapitalReconciliation}
    {u : CapitalUpdate} (hu : u ∈ updates row inputs) : u.Sound := by
  induction inputs generalizing row with
  | nil => cases hu
  | cons input inputs ih =>
    rw [updates] at hu
    split at hu
    · next state committed hcall =>
      rcases List.mem_cons.mp hu with rfl | hrest
      · exact (reconcile_ok hcall).2.1
      · exact ih hrest
    · exact ih hu

/-- In every run of updates, from every row the table can hold: the high-water mark of the adjusted
    equity never falls, the drawdown is between 0 and 100, a lock stays with multiplier 0, and the
    multiplier rises only below the recovery thresholds. -/
theorem updates_sound (row : Option CapitalRiskRow) (inputs : List CapitalReconciliation) :
    (row.toList ++ (updates row inputs).map (·.row)).Pairwise Onward ∧
      ∀ u ∈ updates row inputs, u.Sound :=
  ⟨updates_onward row inputs, fun _ hu => updates_each hu⟩

/-- A fall of three percent halves the risk, which recovers below one percent; a fall beyond five
    percent locks it for good. -/
example : (updates none ([10000, 9700, 9850, 9950, 9400, 12000].map fun equity =>
      ⟨⟨some 0, true, equity, equity, equity, 0, 0, false, false, []⟩, 0, 0, 0⟩)).map
        (·.row.state.riskMultiplier) = [.one, .half, .half, .one, .zero, .zero] := by
  decide +kernel

/-- Where loss limits are enforced, nothing is admitted after a lock. -/
theorem locked_admission {row : CapitalRiskRow} {inputs : List CapitalReconciliation}
    (hlocked : row.state.lockedOut) {u : CapitalUpdate} (hu : u ∈ updates (some row) inputs)
    {mode : TradingMode} (hmode : enforcesLossLimits mode) {equity : Decimal}
    {daily : DailyRiskResult} {admission : CapitalAdmission}
    (h : capitalAdmission mode equity daily u.row.state = .ok admission) :
    admission.lockedOut ∧ admission.riskMultiplier = .zero := by
  simp only [capitalAdmission, bind_ok, pure_ok, hmode, if_true] at h
  obtain ⟨_, -, _, -, rfl⟩ := h
  have hlater := List.rel_of_pairwise_cons (updates_onward (some row) inputs)
    (List.mem_map_of_mem (f := CapitalUpdate.row) hu)
  obtain ⟨hstays, hzero⟩ := hlater.locked hlocked
  simp [hstays, hzero]

end ScalpingBot.Risk
