import ScalpingBot.Risk.Confirmed

/-! The loss with costs never falls as the volume grows, whatever the commission's minimum, its rate and
    the conversion fee, and so the search over the steps of the grid ends at the last affordable one. -/

namespace ScalpingBot.Risk

open Significant (truncate_mono)

/-- The reserve is accepted at decimal volumes above zero only. -/
theorem reserve_volume {c : StopCostInput} {r : Decimal} (h : stopCostReserve c = .ok r) :
    isDecimalText c.volume ∧ 0 < c.volume := by
  obtain ⟨_, -, -, -, hvolume⟩ := stopCostReserve_spec h
  exact hvolume

theorem reserve_nonneg {c : StopCostInput} {r : Decimal} (h : stopCostReserve c = .ok r) : 0 ≤ r := by
  simp only [stopCostReserve, bind_ok, decimal_ok, require_ok, pure_ok] at h
  obtain ⟨tick, ⟨rfl, -⟩, points, ⟨rfl, -⟩, _, ⟨-, hpoints, htick⟩, entry, ⟨rfl, -⟩, stop, ⟨rfl, -⟩,
    volume, ⟨rfl, hvolume⟩, tickValue, ⟨rfl, hvalue⟩, feeRate, ⟨rfl, hfee⟩, commission, hcommission,
    rfl⟩ := h
  obtain ⟨g, hg, hnonneg, -, hpos⟩ := oneWayCommission_spec hcommission
  obtain rfl : g c.volume = commission := Except.ok.inj ((hg _ hpos).symm.trans hcommission)
  have hvalue := (text_bounds hvalue).1
  have hdistance : 0 ≤ (|c.entryPrice.minus c.stopLoss| : Decimal).div c.metadata.tickSize :=
    nonneg_div (abs_nonneg _) htick.le
  have hloss := nonneg_times (nonneg_times (nonneg_plus hdistance hpoints.le) hvalue) hpos.le
  have hconversion := nonneg_div (nonneg_times hloss (text_bounds hfee).1) (by norm_num : (0 : ℚ) ≤ 100)
  have hpoint := nonneg_times (nonneg_times hpoints.le hvalue) hpos.le
  have htwo := nonneg_times (hnonneg _ hpos.le) (by norm_num : (0 : ℚ) ≤ 2)
  exact nonneg_plus (nonneg_plus htwo hpoint) hconversion

/-- The loss of the prices and the reserve grow with the volume. -/
theorem loss_with_reserve_mono {c : StopCostInput} {perVolume v w r r' : Decimal}
    (hperVolume : 0 ≤ perVolume) (hle : v ≤ w) (hv : stopCostReserve { c with volume := v } = .ok r)
    (hw : stopCostReserve { c with volume := w } = .ok r') :
    (v.times perVolume).plus r ≤ (w.times perVolume).plus r' := by
  obtain ⟨f, hf, hmono, -⟩ := stopCostReserve_spec hv
  obtain ⟨hvText, hvPos⟩ := reserve_volume hv
  obtain ⟨hwText, hwPos⟩ := reserve_volume hw
  obtain rfl : f v = r := Except.ok.inj ((hf v hvText hvPos).symm.trans hv)
  obtain rfl : f w = r' := Except.ok.inj ((hf w hwText hwPos).symm.trans hw)
  have hprices := nonneg_times hvPos.le hperVolume
  exact truncate_mono (by decide) (add_nonneg hprices (reserve_nonneg hv))
    (add_le_add (times_mono hvPos.le hperVolume hle) (hmono v w hvPos.le hle))

variable {input : PositionRiskInput} {t : PositionTerms}

/-- `totalLoss` is the loss of the prices with the reserve for a stop. -/
theorem totalLoss_mono (hloss : 0 ≤ t.lossPerVolume) {v w l l' : Decimal} (hle : v ≤ w)
    (hv : totalLoss input t v = .ok l) (hw : totalLoss input t w = .ok l') : l ≤ l' := by
  simp only [totalLoss, bind_ok, pure_ok] at hv hw
  obtain ⟨r, hv, rfl⟩ := hv
  obtain ⟨r', hw, rfl⟩ := hw
  exact loss_with_reserve_mono (c := ⟨input.metadata, input.entryPrice, input.stopLoss, v,
    input.adverseSlippagePoints, input.executionOrderType⟩) hloss hle hv hw

/-- A step of the grid whose loss with costs is within the budget. -/
def AffordableStep (input : PositionRiskInput) (t : PositionTerms) (step : ℕ) : Prop :=
  ∃ loss, totalLoss input t (t.volumeAt step) = .ok loss ∧ loss ≤ t.riskBudget

/-- `high`, where the search begins: with NaN for the volume it does not begin at all. -/
def highStep (t : PositionTerms) (normalized : Option Decimal) : ℕ :=
  (normalized.map t.stepsBelow).getD 0

/-- The volume before the search is the one of a step of the grid, up to the broker's maximum. -/
theorem normalized_grid (ht : TermsOf input t) {m : MarginTerms} {byRisk : Option Decimal}
    {top : Decimal} (hrisk : normalizedByRisk input t = .ok byRisk)
    (hmargin : marginTerms input t = .ok m)
    (hnormalized : normalizedByMargin t m byRisk = .ok (some top)) :
    ∃ last, top = input.gridVolume last ∧ input.gridVolume last ≤ input.metadata.maxVolume := by
  simp only [normalizedByMargin, bind_ok, require_ok, pure_ok] at hnormalized
  obtain ⟨-, -, hnormalized⟩ := hnormalized
  obtain ⟨risked, rfl, hmin⟩ := Option.map_eq_some_iff.mp hnormalized
  obtain ⟨last, rfl, hlast⟩ := normalizedByRisk_top ht hrisk
  obtain ⟨n, hn, hiff⟩ := min_aligned ht hlast (minVolume_le_margin ht hmargin).2
  refine ⟨n, hmin.symm.trans hn, (gridVolume_monotone ht ?_).trans hlast⟩
  exact ((hiff n).mp le_rfl).1

/-- The search that `sizePosition` makes finds the largest affordable step up to `high`. -/
theorem search_largest {m : MarginTerms} {byRisk normalized : Option Decimal} {loss : Decimal}
    (hterms : positionTerms input = .ok t) (hrisk : normalizedByRisk input t = .ok byRisk)
    (hmargin : marginTerms input t = .ok m)
    (hnormalized : normalizedByMargin t m byRisk = .ok normalized)
    (hloss : totalLoss input t t.minVolume = .ok loss) (hwithin : loss ≤ t.riskBudget) :
    ∃ n, searchStep (fitsBudget input t) 0 (highStep t normalized) = .ok n ∧
      costedVolume input t normalized = .ok (t.volumeAt n) ∧ n ≤ highStep t normalized ∧
      AffordableStep input t n ∧
      ∀ k, k ≤ highStep t normalized → AffordableStep input t k → k ≤ n := by
  have ht := positionTerms_of hterms
  have hcosted {n : ℕ} (hn : searchStep (fitsBudget input t) 0 (highStep t normalized) = .ok n) :
      costedVolume input t normalized = .ok (t.volumeAt n) := by
    rw [costedVolume, hloss, ok_bind, require_eq hwithin, ok_bind]
    change (searchStep (fitsBudget input t) 0 (highStep t normalized) >>= fun step =>
      pure (t.volumeAt step)) = _
    rw [hn]
    rfl
  cases normalized with
  | none =>
    have hzero : input.gridVolume 0 ≤ input.metadata.maxVolume := by
      rw [gridVolume_zero, ← ht.minVolume.1, ← ht.maxVolume.1]
      exact ht.volumes
    have hsearch : searchStep (fitsBudget input t) 0 (highStep t none) = .ok 0 := by
      rw [highStep, Option.map_none, Option.getD_none, searchStep, if_neg (lt_irrefl 0)]
      rfl
    refine ⟨0, hsearch, hcosted hsearch, le_rfl, ⟨loss, ?_, hwithin⟩, fun k hk _ => hk⟩
    rw [volumeAt_grid ht hzero, gridVolume_zero, ← ht.minVolume.1]
    exact hloss
  | some top =>
    obtain ⟨last, rfl, hlast⟩ := normalized_grid ht hrisk hmargin hnormalized
    have hhigh : highStep t (some (input.gridVolume last)) = last := stepsBelow_grid ht hlast
    obtain ⟨n, hn, hle, hiff⟩ := searchStep_last ht hlast hloss hwithin
    have haffordable {k : ℕ} (hk : k ≤ last) : AffordableStep input t k ↔ k ≤ n := by
      rw [hiff k hk, AffordableStep, volumeAt_grid ht ((gridVolume_monotone ht hk).trans hlast)]
    rw [hhigh] at hcosted ⊢
    exact ⟨n, hn, hcosted hn, hle, (haffordable hle).mpr le_rfl,
      fun k hk hk' => (haffordable hk).mp hk'⟩

/-- The loss with costs is nondecreasing in the volume wherever the reserve is accepted, and the search
    over the steps of the grid returns the largest affordable one. -/
theorem totalLoss_search :
    (∀ (c : StopCostInput) (perVolume v w r r' : Decimal), 0 ≤ perVolume → v ≤ w →
      stopCostReserve { c with volume := v } = .ok r →
      stopCostReserve { c with volume := w } = .ok r' →
        (v.times perVolume).plus r ≤ (w.times perVolume).plus r') ∧
    ∀ (input : PositionRiskInput) (t : PositionTerms), positionTerms input = .ok t →
      (∀ v w l l', v ≤ w → totalLoss input t v = .ok l → totalLoss input t w = .ok l' → l ≤ l') ∧
      ∀ byRisk m normalized loss, normalizedByRisk input t = .ok byRisk →
        marginTerms input t = .ok m → normalizedByMargin t m byRisk = .ok normalized →
        totalLoss input t t.minVolume = .ok loss → loss ≤ t.riskBudget →
          ∃ n, searchStep (fitsBudget input t) 0 (highStep t normalized) = .ok n ∧
            costedVolume input t normalized = .ok (t.volumeAt n) ∧ n ≤ highStep t normalized ∧
            AffordableStep input t n ∧
            ∀ k, k ≤ highStep t normalized → AffordableStep input t k → k ≤ n := by
  refine ⟨fun c perVolume v w r r' hperVolume hle => loss_with_reserve_mono hperVolume hle,
    fun input t hterms => ⟨fun v w l l' hle => ?_, fun byRisk m normalized loss => ?_⟩⟩
  · exact totalLoss_mono (positionTerms_of hterms).loss.le hle
  · exact search_largest hterms

theorem totalLoss_search_leg : ∃ t normalized n, positionTerms GridSample.leg = .ok t ∧
    searchStep (fitsBudget GridSample.leg t) 0 (highStep t normalized) = .ok n ∧
    costedVolume GridSample.leg t normalized = .ok (t.volumeAt n) ∧
    ∀ k, k ≤ highStep t normalized → AffordableStep GridSample.leg t k → k ≤ n := by
  have happroved : (sizePosition GridSample.leg).approved := by decide +kernel
  obtain ⟨decision, h⟩ := sizeVolume_of_approved happroved
  simp only [sizeVolume, bind_ok] at h
  obtain ⟨t, hterms, byRisk, hrisk, m, hmargin, normalized, hnormalized, volume, hcosted, -⟩ := h
  simp only [costedVolume, bind_ok, require_ok] at hcosted
  obtain ⟨loss, hloss, -, hwithin, -⟩ := hcosted
  obtain ⟨n, hsearch, hvolume, -, -, hlargest⟩ := (totalLoss_search.2 GridSample.leg t hterms).2
    byRisk m normalized loss hrisk hmargin hnormalized hloss hwithin
  exact ⟨t, normalized, n, hterms, hsearch, hvolume, hlargest⟩

end ScalpingBot.Risk
