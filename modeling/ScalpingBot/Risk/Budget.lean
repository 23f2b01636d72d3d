import ScalpingBot.Risk.OcoEvaluator

/-! What an approved sizing guarantees: no leg loses more than its percent of the equity, costs
    included, and the loop over the exact margins keeps that. -/

namespace ScalpingBot.Risk

/-! ### One leg -/

theorem positionTerms_ok {input : PositionRiskInput} {t : PositionTerms}
    (h : positionTerms input = .ok t) :
    t.equity = input.equity ∧ t.baseRisk = input.baseRiskPercent ∧ 0 < t.equity ∧ 0 < t.baseRisk := by
  simp only [positionTerms, bind_ok, decimal_ok, require_ok, pure_ok] at h
  obtain ⟨equity, ⟨hequity, -⟩, _, -, risk, ⟨hrisk, -⟩, _, -, _, hpos, _, ⟨hpos', -⟩, h⟩ := h
  obtain ⟨_, -, _, -, _, -, _, -, _, -, _, -, _, -, _, -, _, -, _, -, _, -, _, -, _, -, _, -, rfl⟩ := h
  exact ⟨hequity.symm, hrisk.symm, hpos, hpos'⟩

theorem PositionTerms.riskBudget_le (t : PositionTerms) (hequity : 0 ≤ t.equity)
    (hrisk : 0 ≤ t.baseRisk) : t.riskBudget ≤ t.equity * t.baseRisk / 100 := by
  have hproduct : 0 ≤ t.equity * t.baseRisk := mul_nonneg hequity hrisk
  have htimes := Decimal.times_nonneg hproduct
  calc t.riskBudget ≤ t.equity.times t.baseRisk / 100 := Decimal.div_le (by positivity)
    _ ≤ t.equity * t.baseRisk / 100 :=
      div_le_div_of_nonneg_right (Decimal.times_le hproduct) (by norm_num)

theorem sizeVolume_ok {input : PositionRiskInput} {decision : PositionRiskDecision}
    (h : sizeVolume input = .ok decision) : 0 ≤ input.equity * input.baseRiskPercent ∧
      ∃ loss, decision.maximumLoss = some loss ∧
        loss ≤ input.equity * input.baseRiskPercent / 100 := by
  simp only [sizeVolume, bind_ok, require_ok, pure_ok] at h
  obtain ⟨t, hterms, _, -, _, -, _, -, _, -, loss, -, _, hbudget, _, -, rfl⟩ := h
  obtain ⟨hequity, hrisk, hequityPos, hriskPos⟩ := positionTerms_ok hterms
  rw [← hequity, ← hrisk]
  exact ⟨mul_nonneg hequityPos.le hriskPos.le, loss, rfl,
    hbudget.trans (t.riskBudget_le hequityPos.le hriskPos.le)⟩

/-- An approved leg loses at most its percent of the equity. -/
theorem sizePosition_loss {input : PositionRiskInput} (h : (sizePosition input).approved) :
    0 ≤ input.equity * input.baseRiskPercent ∧
      ∃ loss, (sizePosition input).maximumLoss = some loss ∧
        loss ≤ input.equity * input.baseRiskPercent / 100 := by
  rw [sizePosition] at h ⊢
  cases hsize : sizeVolume input with
  | ok decision => exact sizeVolume_ok hsize
  | error reason =>
    rw [hsize] at h
    cases h

/-! ### Both legs -/

/-- The percent of one leg: half the setup percent, to ten decimals. -/
def legPercent (setupRiskPercent : Decimal) : Decimal :=
  (setupRiskPercent.div 2).toDecimalPlacesDown 10

/-- Both legs, where they are approved, lose at most their percent of the equity each. -/
def SizedAt (equity setupRiskPercent : Decimal) (risk : OcoRiskDecision) : Prop :=
  risk.approved → isDecimalText setupRiskPercent ∧ ∃ buyLoss sellLoss,
    risk.buy.maximumLoss = some buyLoss ∧ risk.sell.maximumLoss = some sellLoss ∧
    buyLoss ≤ equity * legPercent setupRiskPercent / 100 ∧
    sellLoss ≤ equity * legPercent setupRiskPercent / 100

theorem perLegRisk_ok {input : OcoRiskInput} {percent : Decimal}
    (h : perLegRisk input = .ok percent) :
    percent = legPercent input.setupRiskPercent ∧ isDecimalText input.setupRiskPercent := by
  simp only [perLegRisk, bind_ok, decimal_ok, require_ok, pure_ok] at h
  obtain ⟨_, ⟨rfl, htext⟩, _, -, _, -, _, -, _, -, rfl⟩ := h
  exact ⟨rfl, htext⟩

variable {buy sell : PositionRiskInput} {setupRiskPercent equity : Decimal}

theorem sizeLegs_sized {risk : OcoRiskDecision}
    (h : sizeLegs ⟨buy, sell, setupRiskPercent⟩ = .ok risk) (hbuy : buy.equity = equity)
    (hsell : sell.equity = equity) : SizedAt equity setupRiskPercent risk := by
  intro happroved
  simp only [sizeLegs, bind_ok] at h
  obtain ⟨percent, hpercent, margin, -, h⟩ := h
  obtain ⟨rfl, htext⟩ := perLegRisk_ok hpercent
  split at h
  · next buyLoss sellLoss _ _ hbuyApproved hsellApproved _ _ _ _ =>
    simp only [bind_ok, pure_ok] at h
    obtain ⟨_, -, _, -, _, -, rfl⟩ := h
    obtain ⟨-, loss, hloss, hle⟩ := sizePosition_loss hbuyApproved
    obtain ⟨-, loss', hloss', hle'⟩ := sizePosition_loss hsellApproved
    exact ⟨htext, loss, loss', hloss, hloss', hbuy ▸ hle, hsell ▸ hle'⟩
  · cases h
    cases happroved

theorem sizeOcoPair_sized (hbuy : buy.equity = equity) (hsell : sell.equity = equity) :
    SizedAt equity setupRiskPercent (sizeOcoPair ⟨buy, sell, setupRiskPercent⟩) := by
  cases hsize : sizeLegs ⟨buy, sell, setupRiskPercent⟩ with
  | ok risk =>
    rw [sizeOcoPair, hsize]
    exact sizeLegs_sized hsize hbuy hsell
  | error reason =>
    rw [sizeOcoPair, hsize]
    intro h
    cases h

/-- The loop over the exact margins: whatever the estimator answers, a confirmed pair was sized with
    the same percent. -/
theorem confirmMargin_sized {o : OcoRiskEvaluatorOptions}
    {freeMargin currentMargin usable : Decimal} {attempts : List ℕ} {risk : OcoRiskDecision}
    {reasons : List String} {c : OcoRiskEvaluatorOptions.Confirmation}
    (h : o.confirmMargin setupRiskPercent freeMargin currentMargin usable attempts buy sell risk
      reasons = .ok c) (hbuy : buy.equity = equity) (hsell : sell.equity = equity)
    (hsized : SizedAt equity setupRiskPercent risk) :
    SizedAt equity setupRiskPercent c.risk := by
  induction attempts generalizing buy sell risk reasons with
  | nil =>
    cases h
    exact hsized
  | cons attempt rest ih =>
    rw [OcoRiskEvaluatorOptions.confirmMargin] at h
    split at h
    · next buyVolume sellVolume _ _ _ =>
      simp only [bind_ok] at h
      obtain ⟨answers, -, buyMargin, -, sellMargin, -, _, -, h⟩ := h
      split at h
      · -- the broker's margins replace the estimates, the losses stay
        cases h
        exact hsized
      · split at h
        · cases h
          exact hsized
        · simp only [bind_ok] at h
          obtain ⟨_, -, _, -, h⟩ := h
          exact ih h hbuy hsell (sizeOcoPair_sized hbuy hsell)
    · cases h
      exact hsized

/-- An attempt that confirms the margins ends the loop with the broker's answers. -/
theorem confirmMargin_confirmed {o : OcoRiskEvaluatorOptions} {setupRiskPercent freeMargin
    currentMargin usable buyVolume sellVolume buyMargin sellMargin : Decimal} {attempt : ℕ}
    {rest : List ℕ} {buy sell : PositionRiskInput} {risk : OcoRiskDecision} {reasons : List String}
    (happroved : risk.approved = true) (hbuy : risk.buy.normalizedVolume = some buyVolume)
    (hsell : risk.sell.normalizedVolume = some sellVolume)
    (hboth : o.estimateBoth (2 + 2 * attempt) buy.metadata.symbolId buyVolume sellVolume =
      .ok (buyMargin, sellMargin))
    (hbuyText : isDecimalText buyMargin) (hsellText : isDecimalText sellMargin)
    (hpos : 0 < buyMargin ∧ 0 < sellMargin)
    (hreasons : o.marginReasons freeMargin currentMargin usable (buyMargin.plus sellMargin) = []) :
    o.confirmMargin setupRiskPercent freeMargin currentMargin usable (attempt :: rest) buy sell risk
      reasons = .ok ⟨{ risk with
        buy := { risk.buy with estimatedMargin := some buyMargin }
        sell := { risk.sell with estimatedMargin := some sellMargin } }, true, []⟩ := by
  rw [OcoRiskEvaluatorOptions.confirmMargin]
  simp only [happroved, hbuy, hsell, hboth, ok_bind, decimal_eq _ hbuyText, decimal_eq _ hsellText,
    hreasons, List.isEmpty_nil, if_true]
  rw [require_eq hpos, ok_bind]
  rfl

end ScalpingBot.Risk
