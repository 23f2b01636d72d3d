import Mathlib.Logic.Function.Basic
import ScalpingBot.Library.Transition
import ScalpingBot.Risk.Capital
import ScalpingBot.Risk.TradingDay

/-! The daily loss (packages/risk-engine/src/risk.ts) and the store that latches it
    (apps/execution-service/src/daily-risk-store.ts). The `SELECT` and the upsert of a call are two
    steps, between which other calls may take theirs. -/

namespace ScalpingBot.Risk

/-! ### The daily loss -/

structure DailyLossInput where
  baselineEquity : Decimal
  currentEquity : Decimal
  netFlows : Decimal
  thresholdPercent : Decimal

structure DailyLoss where
  lockedOut : Bool
  lossPercent : Decimal
  reasonCode : Option String
  deriving DecidableEq

/-- The body of the `try`. -/
def DailyLossInput.measure (input : DailyLossInput) : Except String DailyLoss := do
  let baseline ← decimal input.baselineEquity
  if baseline ≤ 0 then
    return ⟨true, 0, some "DAILY_BASELINE_INVALID"⟩
  else
    let flows ← signedDecimal input.netFlows
    let adjustedBaseline := baseline.plus flows
    let current ← decimal input.currentEquity
    let loss := max 0 (adjustedBaseline.minus current)
    let percent := ((loss.div baseline).times 100).toDecimalPlacesUp 8
    let threshold ← decimal input.thresholdPercent
    return ⟨threshold ≤ percent, percent,
      if threshold ≤ percent then some "DAILY_LOSS_LOCKOUT" else none⟩

def dailyLoss (input : DailyLossInput) : DailyLoss :=
  match input.measure with
  | .ok loss => loss
  | .error _ => ⟨true, 0, some "DAILY_STATE_INVALID"⟩

/-! ### The table -/

/-- The values of a row of daily_risk_state. -/
structure DailyValues where
  baselineEquity : Decimal
  currentEquity : Decimal
  netFlows : Decimal
  realizedPnl : Decimal
  unrealizedPnl : Decimal
  lossPercent : Decimal
  lockedOut : Bool
  lockoutReason : Option String

/-- The `CHECK` constraints, and the range of `numeric(12,8)`. -/
def DailyValues.Storable (v : DailyValues) : Prop :=
  0 < v.baselineEquity ∧ 0 ≤ v.currentEquity ∧ 0 ≤ v.lossPercent ∧ v.lossPercent < 10 ^ 4

instance (v : DailyValues) : Decidable v.Storable :=
  inferInstanceAs (Decidable (0 < v.baselineEquity ∧ 0 ≤ v.currentEquity ∧ 0 ≤ v.lossPercent ∧
    v.lossPercent < 10 ^ 4))

structure DailyRiskRow where
  values : DailyValues
  storable : values.Storable

/-- `UNIQUE (account_id, trading_day, timezone)`. -/
structure DayKey where
  accountId : String
  tradingDay : Text
  timezone : String
  deriving DecidableEq

/-- `DO UPDATE SET`: the baseline of the row stays, and so does its lock. -/
def DailyValues.merged (excluded : DailyValues) : Option DailyRiskRow → DailyValues
  | some row =>
    let locked := row.values.lockedOut || excluded.lockedOut
    { excluded with
      baselineEquity := row.values.baselineEquity
      lockedOut := locked
      lockoutReason := if locked then some "DAILY_LOSS_LOCKOUT" else none }
  | none => excluded

def DailyValues.upsert (excluded : DailyValues) (row : Option DailyRiskRow) :
    Except String DailyRiskRow :=
  if h : (excluded.merged row).Storable then .ok ⟨excluded.merged row, h⟩
  else .error "CHECK_VIOLATION"

/-! ### One call -/

structure DailyReconciliation where
  accountId : String
  account : AccountState
  timezone : String
  thresholdPercent : Decimal
  includeUnrealized : Bool
  netFlows : Decimal
  allowBaselineBootstrap : Bool
  baselineCaptureGraceSeconds : ℤ
  now : ℤ

def DailyReconciliation.currentEquity (input : DailyReconciliation) : Decimal :=
  if input.includeUnrealized then input.account.equity else input.account.balance

/-- The baseline of the row that the `SELECT` returned, or the one of a day without a row. -/
def DailyReconciliation.baseline (input : DailyReconciliation) (dayStart : ℤ) :
    Option DailyRiskRow → Except String Decimal
  | some row => .ok row.values.baselineEquity
  | none => do
    let withinGrace := input.now - dayStart ≤ input.baselineCaptureGraceSeconds * 1_000
    require (input.allowBaselineBootstrap ∨ withinGrace) "DAILY_RISK_BASELINE_UNAVAILABLE"
    let current ← decimal input.currentEquity
    let flows ← signedDecimal input.netFlows
    let baseline ← decimal (current.minus flows)
    require (0 < baseline) "DAILY_RISK_BASELINE_INVALID"
    return baseline

/-- A call between its `SELECT`, whose row it has read, and its upsert. -/
structure DailyCall where
  input : DailyReconciliation
  key : DayKey
  existing : Option DailyRiskRow
  excluded : DailyValues

def DailyReconciliation.lossInput (input : DailyReconciliation) (baseline : Decimal) :
    DailyLossInput :=
  ⟨baseline, input.currentEquity, input.netFlows, input.thresholdPercent⟩

/-- `DailyRiskStore.reconcile` up to the upsert. -/
def DailyReconciliation.select (zones : String → Except String TimeZone)
    (table : DayKey → Option DailyRiskRow) (input : DailyReconciliation) :
    Except String DailyCall := do
  require input.account.certain "DAILY_RISK_ACCOUNT_UNCERTAIN"
  let zone ← zones input.timezone
  let day ← tradingDay zone input.now
  let dayStart ← tradingDayStart zone input.now
  let key : DayKey := ⟨input.accountId, day, input.timezone⟩
  let existing := table key
  let baseline ← input.baseline dayStart existing
  let result := dailyLoss (input.lossInput baseline)
  let locked := existing.any (·.values.lockedOut) || result.lockedOut
  let equity ← decimal input.account.equity
  let balance ← decimal input.account.balance
  let parsed ← decimal baseline
  let flows ← signedDecimal input.netFlows
  return {
    input := input
    key := key
    existing := existing
    excluded := {
      baselineEquity := baseline
      currentEquity := input.currentEquity
      netFlows := input.netFlows
      realizedPnl := (balance.minus parsed).minus flows
      unrealizedPnl := equity.minus balance
      lossPercent := result.lossPercent
      lockedOut := locked
      lockoutReason := if locked then some "DAILY_LOSS_LOCKOUT" else none
    }
  }

/-- What the call returns, from the lock that the upsert returns. -/
def DailyCall.answer (call : DailyCall) (effectiveLocked : Bool) : Except String DailyRiskResult := do
  let baseline ← decimal call.excluded.baselineEquity
  let threshold ← decimal call.input.thresholdPercent
  let loss ← decimal call.excluded.lossPercent
  let remaining := max 0 ((baseline.times (threshold.minus loss)).div 100)
  return ⟨effectiveLocked, call.excluded.lossPercent,
    if effectiveLocked then 0 else remaining.toDecimalPlacesDown 10⟩

/-! ### Overlapping calls -/

/-- A call whose upsert has committed. -/
structure DailyReturn where
  call : DailyCall
  answer : Except String DailyRiskResult

structure DailyRisk where
  table : DayKey → Option DailyRiskRow
  inFlight : ℕ → Option DailyCall
  /-- the latest first -/
  returned : List DailyReturn

inductive DailyStep where
  | select (id : ℕ) (input : DailyReconciliation)
  | upsert (id : ℕ)

/-- A call that throws before its upsert has committed ends without effect. -/
def DailyRisk.step (zones : String → Except String TimeZone) (s : DailyRisk) :
    DailyStep → Option DailyRisk
  | .select id input =>
    if (s.inFlight id).isSome then none
    else match input.select zones s.table with
      | .ok call => some { s with inFlight := Function.update s.inFlight id (some call) }
      | .error _ => some s
  | .upsert id => match s.inFlight id with
    | none => none
    | some call => match call.excluded.upsert (s.table call.key) with
      | .ok row => some {
          table := Function.update s.table call.key (some row)
          inFlight := Function.update s.inFlight id none
          returned := ⟨call, call.answer row.values.lockedOut⟩ :: s.returned }
      | .error _ => some { s with inFlight := Function.update s.inFlight id none }

/-! ### The loss of an unlocked day -/

/-- `max(0, baseline + flows - current)`. -/
def DailyLossInput.loss (input : DailyLossInput) : ℚ :=
  max 0 (input.baselineEquity + input.netFlows - input.currentEquity)

/-- An unlocked day has valid texts and a loss, rounded up to eight places, below the threshold. -/
theorem dailyLoss_unlocked {input : DailyLossInput} (h : (dailyLoss input).lockedOut = false) :
    isDecimalText input.baselineEquity ∧ 0 < input.baselineEquity ∧
      isSignedDecimalText input.netFlows ∧ isDecimalText input.currentEquity ∧
      isDecimalText input.thresholdPercent ∧
      (dailyLoss input).lossPercent < input.thresholdPercent ∧
      (dailyLoss input).lossPercent = (((max 0 ((input.baselineEquity.plus
        input.netFlows).minus input.currentEquity)).div input.baselineEquity).times
          100).toDecimalPlacesUp 8 := by
  rw [dailyLoss] at h ⊢
  cases hmeasure : input.measure with
  | error e => simp [hmeasure] at h
  | ok loss =>
    simp only [hmeasure] at h ⊢
    simp only [DailyLossInput.measure, bind_ok, decimal_ok] at hmeasure
    obtain ⟨baseline, ⟨rfl, hbaseline⟩, hmeasure⟩ := hmeasure
    split at hmeasure
    · cases hmeasure
      simp at h
    · next hpos =>
      simp only [bind_ok, decimal_ok, signedDecimal_ok, pure_ok] at hmeasure
      obtain ⟨flows, ⟨rfl, hflows⟩, current, ⟨rfl, hcurrent⟩, threshold, ⟨rfl, hthreshold⟩, rfl⟩ :=
        hmeasure
      refine ⟨hbaseline, not_le.mp hpos, hflows, hcurrent, hthreshold, ?_, rfl⟩
      simpa using h

/-- The loss of a day is computed exactly. -/
theorem loss_eq {input : DailyLossInput} (hbaseline : isDecimalText input.baselineEquity)
    (hflows : isSignedDecimalText input.netFlows) (hcurrent : isDecimalText input.currentEquity) :
    max 0 ((input.baselineEquity.plus input.netFlows).minus input.currentEquity) = input.loss := by
  obtain ⟨b, hb, hbval⟩ := isDecimalText_iff.mp hbaseline
  obtain ⟨f, hf, hfval⟩ := isSignedDecimalText_iff.mp hflows
  obtain ⟨c, hc, hcval⟩ := isDecimalText_iff.mp hcurrent
  rw [abs_lt] at hf
  have hplus : input.baselineEquity.plus input.netFlows =
      input.baselineEquity + input.netFlows := by
    refine Decimal.exact (b + f) 10 ?_ ?_
    · rw [hbval, hfval]
      push_cast
      ring
    · rw [abs_lt]
      omega
  have hminus : (input.baselineEquity + input.netFlows : Decimal).minus input.currentEquity =
      input.baselineEquity + input.netFlows - input.currentEquity := by
    refine Decimal.exact (b + f - c) 10 ?_ ?_
    · rw [hbval, hfval, hcval]
      push_cast
      ring
    · rw [abs_lt]
      omega
  rw [hplus, hminus, DailyLossInput.loss]

/-- The reported percent covers the exact one: rounding up to eight places outweighs the digits that
    the two operations drop. -/
theorem le_percent {l b : ℕ} (hb : 0 < b) (hb' : b < 10 ^ 26) {loss baseline : Decimal}
    (hloss : loss = l / 10 ^ 10) (hbaseline : baseline = b / 10 ^ 10)
    (hmax : ((loss.div baseline).times 100).toDecimalPlacesUp 8 ≤ 100) :
    loss / baseline * 100 ≤ ((loss.div baseline).times 100).toDecimalPlacesUp 8 := by
  have hratio : loss / baseline = l / b := by
    rw [hloss, hbaseline]
    field_simp
  have hratio0 : 0 ≤ loss / baseline := by
    rw [hratio]
    positivity
  have hdiv0 : 0 ≤ loss.div baseline := Significant.truncate_nonneg hratio0
  have htimes0 : 0 ≤ (loss.div baseline).times 100 := Decimal.times_nonneg (by positivity)
  rw [Decimal.toDecimalPlacesUp_of_nonneg 8 htimes0] at hmax ⊢
  set k := ⌈(loss.div baseline).times 100 * 10 ^ 8⌉₊ with hk
  have hceil : (loss.div baseline).times 100 * 10 ^ 8 ≤ k := Nat.le_ceil _
  have hk' : k ≤ 10 ^ 10 := by
    rw [div_le_iff₀ (by norm_num)] at hmax
    have : (k : ℚ) ≤ (10 ^ 10 : ℕ) := by
      push_cast
      linarith
    exact_mod_cast this
  by_contra hless
  have hgap : k * b + 1 ≤ 10 ^ 10 * l := by
    rw [hratio, not_le, div_lt_iff₀ (by norm_num), div_mul_eq_mul_div, div_mul_eq_mul_div,
      lt_div_iff₀ (by positivity)] at hless
    have : ((k * b : ℕ) : ℚ) < (10 ^ 10 * l : ℕ) := by
      push_cast
      linarith
    exact_mod_cast this
  -- a number of at most 40 digits strictly between the reported percent and the ratio
  have hbetween : ((k * 10 ^ 27 + 1 : ℤ) : ℚ) / 10 ^ 37 ≤ loss / baseline := by
    rw [hratio, div_le_div_iff₀ (by positivity) (by positivity)]
    have : (k * 10 ^ 27 + 1) * b ≤ l * 10 ^ 37 := by nlinarith
    exact_mod_cast this
  have hfit : |(k * 10 ^ 27 + 1 : ℤ)| < 10 ^ 40 := by
    rw [abs_of_nonneg (by positivity)]
    omega
  have hfirst := Significant.le_truncate (p := Decimal.precision) (by decide) (by positivity) rfl
    hfit hbetween
  have hscaled : ((k * 10 ^ 27 + 1 : ℤ) : ℚ) / 10 ^ 35 ≤ loss.div baseline * 100 := by
    rw [Decimal.div]
    linarith
  have hsecond := Significant.le_truncate (p := Decimal.precision) (by decide) (by positivity) rfl
    hfit hscaled
  have hsecond' : ((k * 10 ^ 27 + 1 : ℤ) : ℚ) / 10 ^ 35 ≤ (loss.div baseline).times 100 := hsecond
  have : ((k * 10 ^ 27 + 1 : ℤ) : ℚ) / 10 ^ 35 * 10 ^ 8 ≤ k :=
    (mul_le_mul_of_nonneg_right hsecond' (by norm_num)).trans hceil
  push_cast at this
  linarith

theorem loss_units {input : DailyLossInput} (hbaseline : isDecimalText input.baselineEquity)
    (hflows : isSignedDecimalText input.netFlows) (hcurrent : isDecimalText input.currentEquity) :
    ∃ l : ℕ, input.loss = l / 10 ^ 10 := by
  obtain ⟨b, -, hbval⟩ := isDecimalText_iff.mp hbaseline
  obtain ⟨f, -, hfval⟩ := isSignedDecimalText_iff.mp hflows
  obtain ⟨c, -, hcval⟩ := isDecimalText_iff.mp hcurrent
  rcases max_choice 0 (input.baselineEquity + input.netFlows - input.currentEquity) with hmax | hmax
  · exact ⟨0, by rw [DailyLossInput.loss, hmax]; simp⟩
  · have hval : input.baselineEquity + input.netFlows - input.currentEquity =
        ((b + f - c : ℤ) : ℚ) / 10 ^ 10 := by
      rw [hbval, hfval, hcval]
      push_cast
      ring
    have hnonneg : 0 ≤ b + f - c := by
      have hsign := hmax ▸ le_max_left 0 (input.baselineEquity + input.netFlows -
        input.currentEquity)
      rw [hval, le_div_iff₀ (by norm_num), zero_mul] at hsign
      exact_mod_cast hsign
    obtain ⟨l, hl⟩ := Int.eq_ofNat_of_zero_le hnonneg
    exact ⟨l, by rw [DailyLossInput.loss, hmax, hval, hl]; push_cast; rfl⟩

/-- The budget that is left, and the loss, do not exceed the daily limit together. -/
theorem remaining_le {input : DailyLossInput} (h : (dailyLoss input).lockedOut = false)
    (hthreshold : input.thresholdPercent ≤ 100) :
    (max 0 ((input.baselineEquity.times (input.thresholdPercent.minus
      (dailyLoss input).lossPercent)).div 100)).toDecimalPlacesDown 10 ≤
        input.thresholdPercent / 100 * input.baselineEquity - input.loss := by
  obtain ⟨hbaseline, hpos, hflows, hcurrent, -, hbelow, hpercent⟩ := dailyLoss_unlocked h
  rw [loss_eq hbaseline hflows hcurrent] at hpercent
  obtain ⟨b, hb, hbval⟩ := isDecimalText_iff.mp hbaseline
  obtain ⟨l, hl⟩ := loss_units hbaseline hflows hcurrent
  have hb0 : 0 < b := by
    rw [hbval] at hpos
    exact_mod_cast (div_pos_iff_of_pos_right (by norm_num)).mp hpos
  have hcover : input.loss / input.baselineEquity * 100 ≤ (dailyLoss input).lossPercent := by
    rw [hpercent] at hbelow ⊢
    exact le_percent hb0 hb hl hbval (hbelow.le.trans hthreshold)
  rw [div_mul_eq_mul_div, div_le_iff₀ hpos] at hcover
  generalize (dailyLoss input).lossPercent = percent at hbelow hcover ⊢
  have hleft : 0 ≤ input.thresholdPercent - percent := by linarith
  have hleft' : 0 ≤ input.thresholdPercent.minus percent := Significant.truncate_nonneg hleft
  have hminus : input.thresholdPercent.minus percent ≤ input.thresholdPercent - percent :=
    Significant.truncate_le hleft
  have hprod : 0 ≤ input.baselineEquity * input.thresholdPercent.minus percent := by positivity
  have htimes := Decimal.times_le hprod
  have htimes0 := Decimal.times_nonneg hprod
  have hquot : 0 ≤ input.baselineEquity.times (input.thresholdPercent.minus percent) / 100 :=
    div_nonneg htimes0 (by norm_num)
  have hdiv := Decimal.div_le hquot
  have hdiv0 : 0 ≤ (input.baselineEquity.times (input.thresholdPercent.minus percent)).div 100 :=
    Significant.truncate_nonneg hquot
  rw [max_eq_right hdiv0]
  calc Decimal.toDecimalPlacesDown 10 _
      ≤ (input.baselineEquity.times (input.thresholdPercent.minus percent)).div 100 :=
        Decimal.toDecimalPlacesDown_le 10 hdiv0
    _ ≤ input.baselineEquity * (input.thresholdPercent - percent) / 100 := by
        refine hdiv.trans ?_
        gcongr
        exact htimes.trans (mul_le_mul_of_nonneg_left hminus hpos.le)
    _ ≤ input.thresholdPercent / 100 * input.baselineEquity - input.loss := by
        linarith

end ScalpingBot.Risk
