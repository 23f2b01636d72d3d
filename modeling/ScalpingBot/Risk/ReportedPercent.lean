import ScalpingBot.Risk.Budget

/-! The percent that an approved evaluation reports. The pair is sized with the second read of the
    callbacks and reports the third, so that a cut between the two leaves the reported percent below
    what the legs may lose. -/

namespace ScalpingBot.Risk

/-- What the approved legs lose together, as modelled. -/
def OcoEvaluation.modelledLoss (e : OcoEvaluation) : Option Decimal :=
  match e.risk with
  | some risk => risk.buy.maximumLoss.bind fun buyLoss => risk.sell.maximumLoss.map (buyLoss + ·)
  | none => e.directionalRisk.bind PositionRiskDecision.maximumLoss

/-- The modelled loss is within the reported percent, for both legs, of the equity. -/
def OcoEvaluation.LossWithinReported (e : OcoEvaluation) : Prop :=
  ∃ loss equity percent, e.modelledLoss = some loss ∧ e.equity = some equity ∧
    e.perLegRiskPercent = some percent ∧ loss ≤ equity * (2 * percent) / 100

namespace OcoRiskEvaluatorOptions

/-- Between the sizing and the result the callbacks do not cut the setup percent below what both legs
    were sized with. Reads that fail, or that no text of ten decimals holds, approve nothing. -/
def NotCut (o : OcoRiskEvaluatorOptions) : Prop :=
  ∀ reserve sized reported, o.effectiveRisk 0 = .ok reserve → o.effectiveRisk 1 = .ok sized →
    o.effectiveRisk 2 = .ok reported → isDecimalText sized → isDecimalText reported →
    2 * legPercent sized ≤ reported

variable {o : OcoRiskEvaluatorOptions} {host : Host} {input : OcoEvaluationInput}

/-- Halving a decimal text is exact. -/
theorem half_eq {a : Decimal} (h : isDecimalText a) : a.div 2 = a / 2 := by
  obtain ⟨n, hn, rfl⟩ := isDecimalText_iff.mp h
  refine Decimal.exact (5 * n) 11 ?_ ?_
  · push_cast
    ring
  · rw [abs_of_nonneg (by positivity)]
    omega

theorem confirmPair_sized {freeMargin currentMargin usable sized buyMargin sellMargin : Decimal}
    {c : Confirmation} (h : o.confirmPair input freeMargin currentMargin usable sized buyMargin
      sellMargin = .ok c) : SizedAt input.account.equity sized c.risk := by
  simp only [confirmPair, bind_ok] at h
  obtain ⟨_, -, _, -, _, -, hconfirm⟩ := h
  exact confirmMargin_sized hconfirm rfl rfl (sizeOcoPair_sized rfl rfl)

/-- What an approved pair comes from. -/
theorem evaluatePair_ok {e : OcoEvaluation} (h : o.evaluatePair host input = .ok e)
    (happroved : e.approved) : ∃ reserve sized reported risk,
      o.effectiveRisk 0 = .ok reserve ∧ o.effectiveRisk 1 = .ok sized ∧
      o.effectiveRisk 2 = .ok reported ∧ isDecimalText input.account.equity ∧
      isDecimalText reported ∧ risk.approved ∧ SizedAt input.account.equity sized risk ∧
      e.risk = some risk ∧ e.equity = some input.account.equity ∧
      e.perLegRiskPercent = some (reported.div 2) := by
  simp only [evaluatePair, bind_ok, decimal_ok] at h
  obtain ⟨margins, -, equity, ⟨rfl, htext⟩, available, -, reserve, hreserve, sized, hsized, c,
    hconfirm, h⟩ := h
  have hrisk := confirmPair_sized hconfirm
  split at h
  · next hconfirmed hriskApproved _ _ =>
    simp only [bind_ok, decimal_ok, pure_ok] at h
    obtain ⟨reported, hreported, _, ⟨rfl, htext'⟩, rfl⟩ := h
    exact ⟨reserve, sized, reported, c.risk, hreserve, hsized, hreported, htext, htext',
      hriskApproved, hrisk, rfl, rfl, rfl⟩
  · simp only [bind_ok, pure_ok] at h
    obtain ⟨_, -, rfl⟩ := h
    cases happroved

theorem evaluatePair_within {e : OcoEvaluation} (h : o.evaluatePair host input = .ok e)
    (happroved : e.approved) (hcut : o.NotCut) : e.LossWithinReported := by
  obtain ⟨reserve, sized, reported, risk, hreserve, hsized, hreported, hequity, htext, hrisk,
    hlosses, he, heEquity, hePercent⟩ := evaluatePair_ok h happroved
  obtain ⟨hsizedText, buyLoss, sellLoss, hbuy, hsell, hbuyLe, hsellLe⟩ := hlosses hrisk
  have hreport := hcut reserve sized reported hreserve hsized hreported hsizedText htext
  obtain ⟨n, -, hn⟩ := isDecimalText_iff.mp hequity
  have hpos : 0 ≤ input.account.equity := by
    rw [hn]
    positivity
  refine ⟨buyLoss + sellLoss, input.account.equity, reported.div 2, ?_, heEquity, hePercent, ?_⟩
  · rw [OcoEvaluation.modelledLoss, he]
    simp only [hbuy, hsell, Option.bind_some, Option.map_some]
  · rw [half_eq htext, mul_div_cancel₀ _ two_ne_zero]
    calc buyLoss + sellLoss
        ≤ input.account.equity * legPercent sized / 100 +
          input.account.equity * legPercent sized / 100 := add_le_add hbuyLe hsellLe
      _ = input.account.equity * (2 * legPercent sized) / 100 := by ring
      _ ≤ input.account.equity * reported / 100 :=
        div_le_div_of_nonneg_right (mul_le_mul_of_nonneg_left hreport hpos) (by norm_num)

/-! ### A single leg -/

theorem directionalAttempts_within {side : OrderSide} {type : PendingExecutionOrderType}
    {z : DirectionalSizing} {attempts : List ℕ} {perVolume : Decimal} {e : OcoEvaluation}
    (h : o.directionalAttempts host input side type z attempts perVolume = .ok e)
    (happroved : e.approved) : e.LossWithinReported := by
  induction attempts generalizing perVolume with
  | nil =>
    cases h
    cases happroved
  | cons attempt rest ih =>
    rw [directionalAttempts] at h
    split at h
    · next volume hsized _ =>
      simp only [bind_ok] at h
      obtain ⟨_, -, exact, -, h⟩ := h
      split at h
      · cases h
        cases happroved
      · split at h
        · -- the leg was sized with the percent that the result reports
          cases h
          obtain ⟨hnonneg, loss, hloss, hle⟩ := sizePosition_loss hsized
          refine ⟨loss, _, _, hloss, rfl, rfl, hle.trans ?_⟩
          simp only at hnonneg ⊢
          linarith
        · exact ih h
    · cases h
      cases happroved

theorem directionalLeg_within {side : OrderSide} {e : OcoEvaluation}
    (h : o.directionalLeg host input side = .ok e) (happroved : e.approved) :
    e.LossWithinReported := by
  rw [directionalLeg] at h
  split at h
  · cases h
    cases happroved
  · simp only [bind_ok] at h
    obtain ⟨_, -, _, -, _, -, _, -, _, -, _, -, _, -, h⟩ := h
    exact directionalAttempts_within h happroved

/-- Where an approved result comes from. -/
theorem evaluate_ok {e : OcoEvaluation} (h : o.evaluate host input = e) (happroved : e.approved) :
    (∃ side, input.selectedSide = some side ∧ o.directionalLeg host input side = .ok e) ∨
      input.selectedSide = none ∧ o.evaluatePair host input = .ok e := by
  rw [evaluate] at h
  split at h
  · subst h
    cases happroved
  · split at h
    · subst h
      cases happroved
    · split at h
      · next side hside =>
        split at h
        · next hleg => exact .inl ⟨side, hside, h ▸ hleg⟩
        · subst h
          cases happroved
      · next hside =>
        split at h
        · subst h
          cases happroved
        · split at h
          · next hpair => exact .inr ⟨hside, h ▸ hpair⟩
          · subst h
            cases happroved

/-- The reported percent covers every approved evaluation: a single leg always, and a pair whose
    percent is not cut. -/
theorem evaluate_within (happroved : (o.evaluate host input).approved)
    (hcut : input.selectedSide = none → o.NotCut) : (o.evaluate host input).LossWithinReported := by
  rcases evaluate_ok rfl happroved with ⟨side, -, hleg⟩ | ⟨hside, hpair⟩
  · exact directionalLeg_within hleg happroved
  · exact evaluatePair_within hpair happroved (hcut hside)

end OcoRiskEvaluatorOptions

end ScalpingBot.Risk
