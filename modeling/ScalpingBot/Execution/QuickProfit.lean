import ScalpingBot.Candidates.Payoff

/-! The early exit of a quick position, apps/execution-service/src/quick-profit-exit.ts: what it
    requires of a quote is kept by every fill near the mark. The rounding of the arithmetic is a
    parameter, as in the payoffs. -/

namespace ScalpingBot.Execution

open Candidates (oneWayCommission oneWayCommission_id perPrice quickOco)
open Scenario (isTickAligned)

/-! ### The code -/

/-- The pattern of `nonnegative`: no sign, and any number of digits. -/
def isPlainText (a : Decimal) : Bool := 0 ≤ a ∧ a.den ∣ 10 ^ a.den.log2

def nonnegative (a : Decimal) : Except String Decimal :=
  if isPlainText a then .ok a else .error "QUICK_PROFIT_COST_INVALID"

theorem nonnegative_ok {a b : Decimal} : nonnegative a = .ok b ↔ a = b ∧ isPlainText a := by
  rw [nonnegative]
  split <;> simp [*]

theorem isPlainText_nonneg {a : Decimal} (h : isPlainText a) : 0 ≤ a := by
  simp only [isPlainText, Bool.decide_and, Bool.and_eq_true, decide_eq_true_eq] at h
  exact h.1

/-- `raw.swap`: an integer text, a number, or something else. -/
inductive RawSwap where
  | text (value : ℤ)
  | number (value : ℤ)
  | other
  deriving DecidableEq

/-- `Number.isSafeInteger`. -/
def isSafeInteger (n : ℤ) : Bool := |n| ≤ 9007199254740991

def RawSwap.value : RawSwap → Option ℤ
  | .text value => some value
  | .number value => if isSafeInteger value then some value else none
  | .other => none

/-- `raw.moneyDigits`, where it is an integer from 0 to 18. -/
def moneyDigits (raw : Option ℤ) : Option ℕ :=
  raw.bind fun digits => if 0 ≤ digits ∧ digits ≤ 18 then some digits.toNat else none

/-- The fields of `ProtectionPosition` that are read; the commission is not finite where it is
    `some none`. -/
structure QuickPosition where
  strategyVersion : Option String
  entryCommission : Option (Option Decimal)
  side : OrderSide
  volume : Decimal
  entryPrice : Decimal

structure ProfitExitInput where
  position : QuickPosition
  quote : Quote
  metadata : SymbolMetadata
  swap : RawSwap
  moneyDigits : Option ℤ
  symbolId : String
  now : ℕ

structure ProfitExitEvidence where
  quote : Quote
  metadataTime : Option ℕ
  entry : Decimal
  volume : Decimal
  gross : Decimal
  entryCommission : Decimal
  modeledExitCommission : Decimal
  swap : Decimal
  conversionReserve : Decimal
  executionReserve : Decimal
  modeledNet : Decimal
  requiredNet : Decimal
  deriving DecidableEq

/-- A time no later than now and no older than an age in milliseconds. -/
def isCurrent (now maximum : ℕ) (time : Option ℕ) : Bool :=
  time.any fun at' => at' ≤ now ∧ now - at' ≤ maximum

namespace ProfitExitInput

variable (round : ℚ → ℚ) (input : ProfitExitInput)

/-- The checks before any price is read. -/
def Applies : Prop :=
  input.position.strategyVersion = some "0.7.2-quick-oco.1-codex.1" ∧
    input.position.entryCommission.isSome ∧
    isCurrent input.now 1000 input.quote.sourceTime ∧
    isCurrent input.now 1000 input.quote.receivedAt ∧
    isCurrent input.now 30000 input.metadata.metadataTime ∧
    input.metadata.symbolId = input.symbolId ∧ input.metadata.symbolName = "XAUUSD"

instance : Decidable input.Applies := by
  unfold Applies
  infer_instance

def mark : Decimal :=
  match input.position.side with
  | .buy => input.quote.bid
  | .sell => input.quote.ask

/-- The sign of a profit. -/
def sign : Decimal :=
  match input.position.side with
  | .buy => 1
  | .sell => -1

/-- The swap that counts: a positive one is not used. -/
def countedSwap (value : ℤ) (digits : ℕ) : Decimal := min 0 (round (value / 10 ^ digits))

/-- The body of `quickProfitExit` after its checks. -/
def profitExitEvidence (swap opening : Decimal) : Except String (Option ProfitExitEvidence) := do
  let p := input.position
  let m := input.metadata
  let tickValue ← nonnegative m.tickValue
  let perPrice := round (round (tickValue * p.volume) / m.tickSize)
  if perPrice ≤ 0 then
    return none
  let reservePrice := round (m.tickSize * quickOco.exitReservePoints)
  let bound := round (max p.entryPrice input.mark + reservePrice)
  let openingCost := max |opening| (← oneWayCommission round m bound p.volume)
  let closingCost ← oneWayCommission round m bound p.volume
  let gross := round (round (round (input.mark - p.entryPrice) * input.sign) * perPrice)
  let conversionRate := round ((← nonnegative m.commission.pnlConversionFeeRate) / 100)
  if 1 ≤ conversionRate then
    return none
  let conversion := round (round (|gross| + round (reservePrice * perPrice)) * conversionRate)
  let executionReserve := round (reservePrice * perPrice)
  let net := round (round (round (round (round (gross - openingCost) - closingCost) + swap) -
    conversion) - executionReserve)
  let required := round (quickOco.earlyNetPrice * perPrice)
  if required ≤ net then
    return some {
      quote := input.quote
      metadataTime := m.metadataTime
      entry := p.entryPrice
      volume := p.volume
      gross := gross
      entryCommission := -openingCost
      modeledExitCommission := -closingCost
      swap := swap
      conversionReserve := conversion
      executionReserve := executionReserve
      modeledNet := net
      requiredNet := required }
  else
    return none

def quickProfitExit : Except String (Option ProfitExitEvidence) := do
  if ¬ input.Applies then
    return none
  let entry ← nonnegative input.position.entryPrice
  let volume ← nonnegative input.position.volume
  let tick ← nonnegative input.metadata.tickSize
  let bid ← nonnegative input.quote.bid
  let ask ← nonnegative input.quote.ask
  if ¬ (0 < entry ∧ 0 < volume ∧ volume.isInteger ∧ 0 < tick ∧ 0 < bid ∧ bid ≤ ask ∧
      isTickAligned bid tick ∧ isTickAligned ask tick) then
    return none
  match input.swap.value, Execution.moneyDigits input.moneyDigits,
    input.position.entryCommission.join with
  | some value, some digits, some opening =>
    if 0 < opening then
      return none
    else
      input.profitExitEvidence round (countedSwap round value digits) opening
  | _, _, _ => return none

/-! ### Fills near the mark -/

/-- The price at which the code charges both commissions. -/
def bound : Decimal :=
  max input.position.entryPrice input.mark + input.metadata.tickSize * quickOco.exitReservePoints

def bookedCommission : Decimal := |input.position.entryCommission.join.getD 0|

def exactSwap : Decimal :=
  countedSwap id (input.swap.value.getD 0) ((Execution.moneyDigits input.moneyDigits).getD 0)

def grossAt (price : Decimal) : Decimal :=
  (price - input.position.entryPrice) * input.sign *
    perPrice input.metadata input.position.volume

def conversion : Decimal := input.metadata.commission.pnlConversionFeeRate / 100

/-- What the execution reserve is worth. -/
def reserve : Decimal :=
  input.metadata.tickSize * quickOco.exitReservePoints *
    perPrice input.metadata input.position.volume

/-- What the position realizes at a closing price. -/
def realizedNet (price : Decimal) : Except String Decimal := do
  let opening ← oneWayCommission id input.metadata input.bound input.position.volume
  let closing ← oneWayCommission id input.metadata price input.position.volume
  return input.grossAt price - max input.bookedCommission opening - closing -
    input.conversion * |input.grossAt price| + input.exactSwap

/-- What evidence without rounding has checked. -/
structure Kept (required commission : Decimal) : Prop where
  modelled : oneWayCommission id input.metadata input.bound input.position.volume = .ok commission
  perPricePos : 0 < perPrice input.metadata input.position.volume
  conversionNonneg : 0 ≤ input.conversion
  net : required ≤ input.grossAt input.mark - max input.bookedCommission commission - commission +
    input.exactSwap - (|input.grossAt input.mark| + input.reserve) * input.conversion -
    input.reserve

theorem sign_abs : |input.sign| = 1 := by
  rw [sign]
  cases input.position.side <;> simp

variable {input : ProfitExitInput} {evidence : ProfitExitEvidence}

theorem kept_of_evidence (h : input.quickProfitExit id = .ok (some evidence)) :
    ∃ commission, input.Kept evidence.requiredNet commission := by
  rw [quickProfitExit] at h
  split at h
  · simp at h
  simp only [bind_ok, nonnegative_ok] at h
  obtain ⟨_, ⟨rfl, -⟩, _, ⟨rfl, -⟩, _, ⟨rfl, -⟩, _, ⟨rfl, -⟩, _, ⟨rfl, -⟩, h⟩ := h
  split at h
  · simp at h
  split at h
  · next value digits opening hvalue hdigits hopening =>
    split at h
    · simp at h
    simp only [profitExitEvidence, id, bind_ok, nonnegative_ok] at h
    obtain ⟨_, ⟨rfl, -⟩, h⟩ := h
    split at h
    · simp at h
    next hperPrice =>
    simp only [bind_ok, nonnegative_ok] at h
    obtain ⟨commission, hcommission, closing, hclosing, _, ⟨rfl, hfee⟩, h⟩ := h
    split at h
    · simp at h
    split at h
    · next hnet =>
      have hsame : closing = commission := by
        rw [hcommission, Except.ok.injEq] at hclosing
        exact hclosing.symm
      rw [pure_ok, Option.some.injEq] at h
      subst h hsame
      refine ⟨closing, hcommission, not_le.mp hperPrice, ?_, ?_⟩
      · rw [conversion]
        exact div_nonneg (isPlainText_nonneg hfee) (by norm_num)
      · rw [bookedCommission, exactSwap, hvalue, hdigits, hopening]
        exact hnet
    · simp at h
  · simp at h

/-- Evidence that rounding has not changed: every fill within the reserve of the mark realizes what
    is required. -/
theorem fill_keeps_required
    (h : input.quickProfitExit (Significant.truncate Decimal.precision) = .ok (some evidence))
    (hexact : input.quickProfitExit id =
      input.quickProfitExit (Significant.truncate Decimal.precision))
    {price : Decimal} (hprice : 0 < price)
    (hnear : |price - input.mark| ≤ input.metadata.tickSize * quickOco.exitReservePoints) :
    ∃ net, input.realizedNet price = .ok net ∧ evidence.requiredNet ≤ net := by
  obtain ⟨commission, hkept⟩ := kept_of_evidence (hexact.trans h)
  obtain ⟨hchecked, hboundPos, hvolume, minimum, hminimum, rfl⟩ :=
    oneWayCommission_id.mp hkept.modelled
  have hclosing := oneWayCommission_id.mpr ⟨hchecked, hprice, hvolume, minimum, hminimum, rfl⟩
  have hdistance : |input.grossAt price - input.grossAt input.mark| ≤ input.reserve := by
    have hfactor : input.grossAt price - input.grossAt input.mark =
        (price - input.mark) * input.sign * perPrice input.metadata input.position.volume := by
      rw [grossAt, grossAt]
      ring
    rw [hfactor, abs_mul, abs_mul, sign_abs, mul_one, abs_of_pos hkept.perPricePos]
    exact mul_le_mul_of_nonneg_right hnear hkept.perPricePos.le
  have hpriceBound : price ≤ input.bound := by
    have hmark := le_max_right input.position.entryPrice input.mark
    have hupper := (abs_le.mp hnear).2
    rw [bound]
    linarith
  have hcheaper : Risk.exactCommission input.metadata minimum price input.position.volume ≤
      Risk.exactCommission input.metadata minimum input.bound input.position.volume := by
    have hscale := Risk.exactCommission_scale hchecked
      (Candidates.minimumCommission_id_nonneg hminimum) le_rfl
      ((mul_le_mul_of_nonneg_right hpriceBound hvolume.le).trans_eq (one_mul _).symm)
    rwa [one_mul] at hscale
  refine ⟨_, by rw [realizedNet, hkept.modelled, ok_bind, hclosing, ok_bind]; rfl, ?_⟩
  obtain ⟨hlower, hupper⟩ := abs_le.mp hdistance
  have habs : |input.grossAt price| ≤ |input.grossAt input.mark| + input.reserve := by
    have htriangle := abs_sub_abs_le_abs_sub (input.grossAt price) (input.grossAt input.mark)
    linarith
  have hcharged := mul_le_mul_of_nonneg_left habs hkept.conversionNonneg
  have hnet := hkept.net
  linarith

end ProfitExitInput

namespace QuickProfitSample

/-- A buy of one ounce of gold, three dollars in profit. -/
def gold : ProfitExitInput where
  position := ⟨some "0.7.2-quick-oco.1-codex.1", some (some (-6 / 100)), .buy, 1, 2000⟩
  quote := ⟨2003, 2003 + 2 / 100, some 5000, some 5000⟩
  metadata := { Risk.GridSample.metadata with metadataTime := some 5000 }
  swap := .number 0
  moneyDigits := some 2
  symbolId := "41"
  now := 5500

/-- A volume whose least commission needs forty-two digits. -/
def immense : ProfitExitInput :=
  { gold with
    position := ⟨some "0.7.2-quick-oco.1-codex.1", some (some 0), .buy, 10 ^ 22, 1994 + 75 / 100⟩
    quote := ⟨2000, 2001, some 5000, some 5000⟩
    metadata :=
      { gold.metadata with
        tickSize := 1
        tickValue := 1
        quoteToAccountConversionRate := 3404193829806058997303 / 10 ^ 10
        commission :=
          ⟨.usdPerMillionUsd, 0, 29375530595358936967 / 10 ^ 10, .quoteCurrency, "USD", 0⟩ } }

end QuickProfitSample

theorem fill_keeps_required_gold : ∃ evidence,
    QuickProfitSample.gold.quickProfitExit (Significant.truncate Decimal.precision) =
      .ok (some evidence) ∧ evidence.requiredNet = 5 / 100 ∧
    ∀ price : Decimal, 0 < price → |price - 2003| ≤ 5 / 100 →
      ∃ net, QuickProfitSample.gold.realizedNet price = .ok net ∧ evidence.requiredNet ≤ net := by
  have hsome : (QuickProfitSample.gold.quickProfitExit (Significant.truncate Decimal.precision)).map
      (Option.map ProfitExitEvidence.requiredNet) = .ok (some (5 / 100)) := by decide +kernel
  obtain ⟨found, hfound, hrequired⟩ := map_ok.mp hsome
  obtain ⟨evidence, rfl, hnet⟩ := Option.map_eq_some_iff.mp hrequired
  refine ⟨evidence, hfound, hnet, fun price hprice hnear =>
    ProfitExitInput.fill_keeps_required hfound (by decide +kernel) hprice (hnear.trans_eq ?_)⟩
  decide +kernel

/-- Where the least commission loses digits the evidence requires more than the worst fill keeps. -/
theorem immense_fill_short : ∃ evidence,
    QuickProfitSample.immense.quickProfitExit (Significant.truncate Decimal.precision) =
      .ok (some evidence) ∧
    |1995 - QuickProfitSample.immense.mark| ≤
      QuickProfitSample.immense.metadata.tickSize * quickOco.exitReservePoints ∧
    ∃ net, QuickProfitSample.immense.realizedNet 1995 = .ok net ∧ net < evidence.requiredNet := by
  have hsome : (QuickProfitSample.immense.quickProfitExit
      (Significant.truncate Decimal.precision)).map (Option.map ProfitExitEvidence.requiredNet) =
        .ok (some (5 * 10 ^ 20)) := by decide +kernel
  obtain ⟨found, hfound, hrequired⟩ := map_ok.mp hsome
  obtain ⟨evidence, rfl, hnet⟩ := Option.map_eq_some_iff.mp hrequired
  refine ⟨evidence, hfound, by decide +kernel, 5 * 10 ^ 20 - 2 / 10 ^ 20, by decide +kernel, ?_⟩
  rw [hnet]
  norm_num

end ScalpingBot.Execution
