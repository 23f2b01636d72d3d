import ScalpingBot.Risk.Grid
import ScalpingBot.Risk.PercentCut

/-! The pair that `evaluate` approves, whatever the margin estimator answers: the estimator has
    confirmed exactly its volumes, within the free margin after the loss reserve and the usage cap,
    and no attempt has enlarged a volume. -/

namespace ScalpingBot.Risk

open Significant (Fits fits_nat truncate_mono truncate_nonneg truncate_le)

/-! ### A leg under a higher margin estimate -/

/-- The broker's margin per volume, replaced by an estimate. -/
def PositionRiskInput.estimated (input : PositionRiskInput) (perVolume : Decimal) :
    PositionRiskInput :=
  { input with estimatedMarginPerVolume := perVolume }

section

variable {input : PositionRiskInput} {t : PositionTerms}

/-- What `normalizedByRisk` leaves is a volume of the grid; `none` stands for NaN. -/
theorem normalizedByRisk_top (ht : TermsOf input t) {top : Decimal}
    (h : normalizedByRisk input t = .ok (some top)) :
    ∃ last, top = input.gridVolume last ∧ input.gridVolume last ≤ input.metadata.maxVolume := by
  obtain ⟨most, hmaximum, hmost⟩ := maximumAligned_grid ht
  have hlast := (hmost most).mp le_rfl
  have hmin {x : Decimal} (hx : t.minVolume ≤ x) : ∃ n, min (t.aligned x) t.maximumAligned =
      input.gridVolume n ∧ input.gridVolume n ≤ input.metadata.maxVolume := by
    obtain ⟨n, hn, hiff⟩ := min_aligned ht hlast hx
    refine ⟨n, ?_, (hmost n).mp ((hiff n).mp le_rfl).1⟩
    rw [hmaximum, min_comm, hn]
  simp only [normalizedByRisk, bind_ok, require_ok] at h
  obtain ⟨-, hraw, h⟩ := h
  obtain ⟨n, hn, hnMax⟩ := hmin hraw
  cases hlimit : input.maxPositionNotional with
  | none =>
    simp only [hlimit, pure_ok, Option.some_inj] at h
    exact ⟨n, h ▸ hn, hnMax⟩
  | some limit =>
    simp only [hlimit, bind_ok, pure_ok] at h
    obtain ⟨limit, -, notional, hnotional, h⟩ := h
    cases notional with
    | none => cases h
    | some volume =>
      rw [Option.map_some, Option.some_inj, hn] at h
      have hvolume : ∃ m, volume = input.gridVolume m ∧
          input.gridVolume m ≤ input.metadata.maxVolume := by
        rw [notionalVolume] at hnotional
        dsimp only at hnotional
        split at hnotional
        · rw [Except.ok.injEq] at hnotional
          split at hnotional
          · cases hnotional
          · rw [Option.some_inj] at hnotional
            exact ⟨most, hnotional ▸ hmaximum, hlast⟩
        · simp only [bind_ok, require_ok, pure_ok, Option.some_inj] at hnotional
          obtain ⟨-, hle, rfl⟩ := hnotional
          exact hmin hle
      obtain ⟨m, rfl, hm⟩ := hvolume
      rcases le_total n m with hle | hle
      · exact ⟨n, h ▸ min_eq_left (gridVolume_monotone ht hle), hnMax⟩
      · exact ⟨m, h ▸ min_eq_right (gridVolume_monotone ht hle), hm⟩

/-- The steps of the grid that the sizing may take under a margin per volume: at or below the volume
    that the risk leaves, within the margin and with a loss within the budget. With NaN there is
    only the first. -/
def Allowed (input : PositionRiskInput) (t : PositionTerms) (budget perVolume : Decimal) :
    Option Decimal → ℕ → Prop
  | none, k => k = 0
  | some top, k => input.gridVolume k ≤ top ∧ input.gridVolume k ≤ budget.div perVolume ∧
    ∃ loss, totalLoss input t (input.gridVolume k) = .ok loss ∧ loss ≤ t.riskBudget

theorem gridVolume_strictMono (ht : TermsOf input t) : StrictMono input.gridVolume := by
  intro j k h
  have hstep := ht.volumeStep.1 ▸ ht.volumeStep.2.2
  have hcast : (j : ℚ) < k := by exact_mod_cast h
  exact add_lt_add_right (mul_lt_mul_of_pos_right hcast hstep) _

/-- The minimum volume is affordable where the margin is read. -/
theorem minVolume_le_margin (ht : TermsOf input t) {m : MarginTerms}
    (h : marginTerms input t = .ok m) :
    0 < m.perVolume ∧ t.minVolume ≤ (m.budget t).div m.perVolume := by
  simp only [marginTerms, bind_ok, decimal_ok, require_ok, pure_ok] at h
  obtain ⟨_, ⟨rfl, htext⟩, _, ⟨rfl, -⟩, _, ⟨rfl, -⟩, _, ⟨hpos, -⟩, _, hle, rfl⟩ := h
  have hbudget : MarginTerms.budget ⟨input.estimatedMarginPerVolume, input.currentMargin,
      input.maxMarginUsagePercent⟩ t < 10 ^ 16 :=
    (min_le_left _ _).trans_lt (text_bounds ht.available.2).2
  rw [times_le_iff ht.minVolume.2.1 htext hbudget] at hle
  refine ⟨hpos, ?_⟩
  rw [Decimal.div, Decimal.precision, (text_fits ht.minVolume.2.1).le_truncate_iff (by norm_num)
    ht.minVolume.2.2.le, le_div_iff₀ hpos]
  exact hle

/-- Whether the loss of a step of the grid is within the budget. -/
def fitsBudget (input : PositionRiskInput) (t : PositionTerms) (step : ℕ) : Except String Bool := do
  return decide ((← totalLoss input t (t.volumeAt step)) ≤ t.riskBudget)

/-- The search over the steps of the grid finds the last one with a loss that fits the budget. -/
theorem searchStep_last (ht : TermsOf input t) {last : ℕ}
    (hlast : input.gridVolume last ≤ input.metadata.maxVolume) {loss : Decimal}
    (hloss : totalLoss input t t.minVolume = .ok loss) (hwithin : loss ≤ t.riskBudget) :
    ∃ n, searchStep (fitsBudget input t) 0 last = .ok n ∧ n ≤ last ∧ ∀ k, k ≤ last → (k ≤ n ↔
      ∃ loss, totalLoss input t (input.gridVolume k) = .ok loss ∧ loss ≤ t.riskBudget) := by
  obtain ⟨f, hf, hmono, -, htext, hpos⟩ := totalLoss_spec ht hloss
  have hmax {k : ℕ} (hk : k ≤ last) := (gridVolume_monotone ht hk).trans hlast
  have hgrid {k : ℕ} (hk : k ≤ last) :
      totalLoss input t (input.gridVolume k) = .ok (f (input.gridVolume k)) :=
    hf _ (gridVolume_text ht (hmax hk)).1 (gridVolume_pos ht k)
  rw [ht.minVolume.1, ← gridVolume_zero, hgrid (Nat.zero_le _)] at hloss
  cases hloss
  have hanti : ∀ j k, j ≤ k → k ≤ last ∧ f (input.gridVolume k) ≤ t.riskBudget →
      j ≤ last ∧ f (input.gridVolume j) ≤ t.riskBudget := by
    rintro j k hjk ⟨hk, hle⟩
    have hj := hjk.trans hk
    have hunit := unit_le (gridVolume_text ht (hmax hj)).1 (gridVolume_pos ht j)
    exact ⟨hj, (hmono _ _ hunit (gridVolume_monotone ht hjk)).trans hle⟩
  have htest : ∀ k, 0 ≤ k → k ≤ last →
      (fitsBudget input t k = .ok true ∧ k ≤ last ∧ f (input.gridVolume k) ≤ t.riskBudget) ∨
      (fitsBudget input t k = .ok false ∧
        ¬ (k ≤ last ∧ f (input.gridVolume k) ≤ t.riskBudget)) := by
    intro k _ hk
    rw [fitsBudget, volumeAt_grid ht (hmax hk), hgrid hk, ok_bind]
    by_cases hfit : f (input.gridVolume k) ≤ t.riskBudget
    · exact .inl ⟨by rw [decide_eq_true hfit]; rfl, hk, hfit⟩
    · exact .inr ⟨by rw [decide_eq_false hfit]; rfl, fun h => hfit h.2⟩
  obtain ⟨n, hn, -, hle, hfits, hlargest⟩ :=
    searchStep_spec htest hanti (Nat.zero_le last) ⟨Nat.zero_le _, hwithin⟩
  refine ⟨n, hn, hle, fun k hk => ?_⟩
  rw [hgrid hk]
  simp only [Except.ok.injEq, exists_eq_left']
  exact ⟨fun hkn => (hanti k n hkn hfits).2, fun hkLoss => hlargest k hk ⟨hk, hkLoss⟩⟩

/-- The volume that the search comes to. -/
theorem costedVolume_last (ht : TermsOf input t) {last : ℕ}
    (hlast : input.gridVolume last ≤ input.metadata.maxVolume) {volume : Decimal}
    (h : costedVolume input t (some (input.gridVolume last)) = .ok volume) :
    ∃ n, volume = input.gridVolume n ∧ n ≤ last ∧ ∀ k, k ≤ last → (k ≤ n ↔
      ∃ loss, totalLoss input t (input.gridVolume k) = .ok loss ∧ loss ≤ t.riskBudget) := by
  simp only [costedVolume, bind_ok, require_ok, pure_ok, Option.map_some, Option.getD_some,
    stepsBelow_grid ht hlast] at h
  obtain ⟨loss, hloss, -, hwithin, step, hsearch, rfl⟩ := h
  obtain ⟨n, hn, hle, hiff⟩ := searchStep_last ht hlast hloss hwithin
  obtain rfl : n = step := Except.ok.inj (hn.symm.trans hsearch)
  exact ⟨n, volumeAt_grid ht ((gridVolume_monotone ht hle).trans hlast), hle, hiff⟩

/-- The sizing comes to the last step that it may take. -/
theorem sizeVolume_last {decision : PositionRiskDecision} (h : sizeVolume input = .ok decision) :
    ∃ t m byRisk n, positionTerms input = .ok t ∧ marginTerms input t = .ok m ∧
      normalizedByRisk input t = .ok byRisk ∧
      decision.normalizedVolume = some (input.gridVolume n) ∧
      input.gridVolume n ≤ input.metadata.maxVolume ∧
      ∀ k, k ≤ n ↔ Allowed input t (m.budget t) m.perVolume byRisk k := by
  simp only [sizeVolume, bind_ok, require_ok, pure_ok] at h
  obtain ⟨t, hterms, byRisk, hrisk, m, hmargin, byMargin, hbyMargin, volume, hcosted, _, -, _, -,
    _, -, rfl⟩ := h
  have ht := positionTerms_of hterms
  obtain ⟨-, hminimum⟩ := minVolume_le_margin ht hmargin
  have hzero : input.gridVolume 0 ≤ input.metadata.maxVolume := by
    rw [gridVolume_zero, ← ht.minVolume.1, ← ht.maxVolume.1]
    exact ht.volumes
  simp only [normalizedByMargin, bind_ok, require_ok, pure_ok] at hbyMargin
  obtain ⟨-, -, rfl⟩ := hbyMargin
  cases byRisk with
  | none =>
    simp only [costedVolume, bind_ok, Option.map_none, Option.getD_none, pure_ok] at hcosted
    obtain ⟨_, -, _, -, step, hstep, rfl⟩ := hcosted
    rw [searchStep, if_neg (lt_irrefl 0)] at hstep
    cases hstep
    exact ⟨t, m, none, 0, hterms, hmargin, hrisk, congrArg some (volumeAt_grid ht hzero), hzero,
      fun k => Nat.le_zero⟩
  | some top =>
    obtain ⟨last, rfl, hlast⟩ := normalizedByRisk_top ht hrisk
    obtain ⟨most, hmost, hiff⟩ := min_aligned ht hlast hminimum
    rw [Option.map_some, hmost] at hcosted
    have hmostLast := ((hiff most).mp le_rfl).1
    have hmostMax := (gridVolume_monotone ht hmostLast).trans hlast
    obtain ⟨n, rfl, hn, hfits⟩ := costedVolume_last ht hmostMax hcosted
    refine ⟨t, m, _, n, hterms, hmargin, hrisk, rfl, (gridVolume_monotone ht hn).trans hmostMax,
      fun k => ?_⟩
    have hsteps : k ≤ most ↔ input.gridVolume k ≤ input.gridVolume last ∧
        input.gridVolume k ≤ (m.budget t).div m.perVolume := by
      rw [hiff, (gridVolume_strictMono ht).le_iff_le]
    rw [Allowed, ← and_assoc, ← hsteps]
    constructor
    · intro hk
      exact ⟨hk.trans hn, (hfits k (hk.trans hn)).mp hk⟩
    · rintro ⟨hk, hloss⟩
      exact (hfits k hk).mpr hloss

/-- A higher estimate of the margin allows no further step. -/
theorem allowed_anti {budget p q : Decimal} (hbudget : 0 ≤ budget) (hp : 0 < p) (hpq : p ≤ q)
    {byRisk : Option Decimal} {k : ℕ} (h : Allowed input t budget q byRisk k) :
    Allowed input t budget p byRisk k := by
  cases byRisk with
  | none => exact h
  | some top =>
    obtain ⟨htop, hmargin, hloss⟩ := h
    refine ⟨htop, hmargin.trans ?_, hloss⟩
    exact truncate_mono (by decide) (div_nonneg hbudget (hp.le.trans hpq))
      (div_le_div_of_nonneg_left hbudget hp hpq)

/-- A higher estimate of the margin does not enlarge the volume of a leg. -/
theorem sizeVolume_anti (input : PositionRiskInput) {p q : Decimal} (hpq : p ≤ q)
    {decision decision' : PositionRiskDecision}
    (h : sizeVolume (input.estimated p) = .ok decision)
    (h' : sizeVolume (input.estimated q) = .ok decision') {v v' : Decimal}
    (hv : decision.normalizedVolume = some v) (hv' : decision'.normalizedVolume = some v') :
    v' ≤ v := by
  obtain ⟨t, m, byRisk, n, hterms, hm, hrisk, hn, -, hiff⟩ := sizeVolume_last h
  obtain ⟨t', m', byRisk', n', hterms', hm', hrisk', hn', -, hiff'⟩ := sizeVolume_last h'
  -- neither the terms nor what the risk leaves depends on the estimate
  obtain rfl : t = t' := Except.ok.inj (hterms.symm.trans hterms')
  obtain rfl : byRisk = byRisk' := Except.ok.inj (hrisk.symm.trans hrisk')
  have ht := positionTerms_of hterms
  obtain ⟨hpos, hminimum⟩ := minVolume_le_margin ht hm
  simp only [marginTerms, bind_ok, decimal_ok, require_ok, pure_ok] at hm hm'
  obtain ⟨_, ⟨rfl, -⟩, _, ⟨rfl, -⟩, _, ⟨rfl, -⟩, _, hchecked, _, hafford, rfl⟩ := hm
  obtain ⟨_, ⟨rfl, -⟩, _, ⟨rfl, -⟩, _, ⟨rfl, -⟩, _, -, _, -, rfl⟩ := hm'
  rw [hn, Option.some_inj] at hv
  rw [hn', Option.some_inj] at hv'
  rw [← hv, ← hv']
  refine gridVolume_monotone ht ((hiff n').mpr ?_)
  refine allowed_anti ?_ hpos hpq ((hiff' n').mp le_rfl)
  exact (nonneg_times ht.minVolume.2.2.le hpos.le).trans hafford

end

/-! ### The pair -/

/-- Both legs of an approved pair are sized, at the percent and the margin of one leg. -/
theorem sizeOcoPair_approved {input : OcoRiskInput} (h : (sizeOcoPair input).approved) :
    ∃ percent margin buy sell buyLoss sellLoss, perLegRisk input = .ok percent ∧
      perLegMargin input = .ok margin ∧
      sizeVolume { input.buy with baseRiskPercent := percent, availableMargin := margin } =
        .ok buy ∧
      sizeVolume { input.sell with baseRiskPercent := percent, availableMargin := margin } =
        .ok sell ∧
      (sizeOcoPair input).buy = buy ∧ (sizeOcoPair input).sell = sell ∧
      buy.maximumLoss = some buyLoss ∧ sell.maximumLoss = some sellLoss ∧
      (sizeOcoPair input).combinedMaximumLoss = some (buyLoss.plus sellLoss) ∧
      isDecimalText buyLoss ∧ isDecimalText sellLoss := by
  cases hsize : sizeLegs input with
  | error reason =>
    rw [sizeOcoPair, hsize] at h
    cases h
  | ok risk =>
    rw [sizeOcoPair, hsize] at h ⊢
    simp only [sizeLegs, bind_ok] at hsize
    obtain ⟨percent, hpercent, margin, hmargin, hsize⟩ := hsize
    split at hsize
    · next buyLoss sellLoss _ _ hbuy hsell hbuyLoss hsellLoss _ _ =>
      simp only [bind_ok, pure_ok, decimal_ok] at hsize
      obtain ⟨_, ⟨rfl, hbuyText⟩, _, ⟨rfl, hsellText⟩, _, -, rfl⟩ := hsize
      obtain ⟨buy, hbuySize⟩ := sizeVolume_of_approved hbuy
      obtain ⟨sell, hsellSize⟩ := sizeVolume_of_approved hsell
      rw [sizePosition, hbuySize] at hbuyLoss
      rw [sizePosition, hsellSize] at hsellLoss
      refine ⟨percent, margin, buy, sell, _, _, hpercent, hmargin, hbuySize, hsellSize, ?_, ?_,
        hbuyLoss, hsellLoss, rfl, hbuyText, hsellText⟩
      · simp only [sizePosition, hbuySize]
      · simp only [sizePosition, hsellSize]
    · cases hsize
      cases h

/-- A volume on the broker's grid. -/
def SymbolMetadata.OnGrid (metadata : SymbolMetadata) (volume : Decimal) : Prop :=
  volume ≤ metadata.maxVolume ∧ ∃ k : ℕ, volume = metadata.minVolume + k * metadata.volumeStep

theorem sizeVolume_onGrid {input : PositionRiskInput} {decision : PositionRiskDecision}
    (h : sizeVolume input = .ok decision) {volume : Decimal}
    (hvolume : decision.normalizedVolume = some volume) :
    SymbolMetadata.OnGrid input.metadata volume := by
  obtain ⟨_, _, _, n, -, -, -, hn, hmax, -⟩ := sizeVolume_last h
  rw [hn, Option.some_inj] at hvolume
  exact ⟨hvolume ▸ hmax, n, hvolume.symm⟩

namespace OcoRiskEvaluatorOptions

variable (o : OcoRiskEvaluatorOptions)

/-- The legs that `evaluate` sizes after a number of confirmations. -/
structure Attempt where
  number : ℕ
  buy : PositionRiskInput
  sell : PositionRiskInput

namespace Attempt

def risk (a : Attempt) (setupRiskPercent : Decimal) : OcoRiskDecision :=
  sizeOcoPair { setupRiskPercent, buy := a.buy, sell := a.sell }

/-- An approved attempt and the volumes of its legs. -/
structure Sized (a : Attempt) (setupRiskPercent buyVolume sellVolume : Decimal) : Prop where
  approved : (a.risk setupRiskPercent).approved
  buy : (a.risk setupRiskPercent).buy.normalizedVolume = some buyVolume
  sell : (a.risk setupRiskPercent).sell.normalizedVolume = some sellVolume

/-- The next attempt, after margins that exceed a limit. -/
def retry (a : Attempt) (buyVolume sellVolume buyMargin sellMargin : Decimal) : Attempt where
  number := a.number + 1
  buy := a.buy.estimated (max a.buy.estimatedMarginPerVolume (marginPerVolume buyMargin buyVolume))
  sell := a.sell.estimated
    (max a.sell.estimatedMarginPerVolume (marginPerVolume sellMargin sellVolume))

/-- A retry enlarges no volume, whatever the margins were. -/
theorem retry_volumes {a : Attempt} {percent buyVolume sellVolume buyMargin sellMargin buyVolume'
    sellVolume' : Decimal} (h : a.Sized percent buyVolume sellVolume)
    (h' : (a.retry buyVolume sellVolume buyMargin sellMargin).Sized percent buyVolume'
      sellVolume') : buyVolume' ≤ buyVolume ∧ sellVolume' ≤ sellVolume := by
  obtain ⟨share, margin, buy, sell, _, _, hshare, hmargin, hbuy, hsell, hbuyEq, hsellEq, -⟩ :=
    sizeOcoPair_approved h.approved
  obtain ⟨share', margin', buy', sell', _, _, hshare', hmargin', hbuy', hsell', hbuyEq', hsellEq',
    -⟩ := sizeOcoPair_approved h'.approved
  -- the estimates are no part of what both legs share
  obtain rfl : share = share' := Except.ok.inj (hshare.symm.trans hshare')
  obtain rfl : margin = margin' := Except.ok.inj (hmargin.symm.trans hmargin')
  have volume {leg sized : PositionRiskDecision} {v : Decimal} (heq : leg = sized)
      (hv : leg.normalizedVolume = some v) : sized.normalizedVolume = some v := heq ▸ hv
  let shared (leg : PositionRiskInput) : PositionRiskInput :=
    { leg with baseRiskPercent := share, availableMargin := margin }
  exact ⟨sizeVolume_anti (shared a.buy) (le_max_left _ _) hbuy hbuy' (volume hbuyEq h.buy)
      (volume hbuyEq' h'.buy),
    sizeVolume_anti (shared a.sell) (le_max_left _ _) hsell hsell' (volume hsellEq h.sell)
      (volume hsellEq' h'.sell)⟩

end Attempt

/-- What the estimator has answered for exactly the volumes of an attempt. -/
structure Confirms (a : Attempt) (setupRiskPercent buyVolume sellVolume buyMargin
    sellMargin : Decimal) : Prop where
  sized : a.Sized setupRiskPercent buyVolume sellVolume
  answered : o.estimateBoth (2 + 2 * a.number) a.buy.metadata.symbolId buyVolume sellVolume =
    .ok (buyMargin, sellMargin)
  texts : isDecimalText buyMargin ∧ isDecimalText sellMargin
  positive : 0 < buyMargin ∧ 0 < sellMargin

/-- The attempts of an evaluation, from the first. -/
inductive Attempted (setupRiskPercent freeMargin currentMargin equity : Decimal) (first : Attempt) :
    Attempt → Prop
  | first : Attempted setupRiskPercent freeMargin currentMargin equity first first
  | retry {a : Attempt} {buyVolume sellVolume buyMargin sellMargin : Decimal} :
    Attempted setupRiskPercent freeMargin currentMargin equity first a →
    o.Confirms a setupRiskPercent buyVolume sellVolume buyMargin sellMargin →
    o.marginReasons freeMargin currentMargin equity (buyMargin.plus sellMargin) ≠ [] →
    Attempted setupRiskPercent freeMargin currentMargin equity first
      (a.retry buyVolume sellVolume buyMargin sellMargin)

variable {o}

/-- The loop confirms no pair but the last that it attempts, and that one in full. -/
theorem confirmMargin_run {percent freeMargin currentMargin equity : Decimal} {first a : Attempt}
    {attempts : List ℕ} {reasons : List String} {c : Confirmation}
    (hrun : o.Attempted percent freeMargin currentMargin equity first a)
    (hattempts : attempts = List.range' a.number attempts.length)
    (h : o.confirmMargin percent freeMargin currentMargin equity attempts a.buy a.sell
      (a.risk percent) reasons = .ok c) (hconfirmed : c.marginConfirmed) :
    ∃ last buyVolume sellVolume buyMargin sellMargin,
      o.Attempted percent freeMargin currentMargin equity first last ∧
      o.Confirms last percent buyVolume sellVolume buyMargin sellMargin ∧
      o.marginReasons freeMargin currentMargin equity (buyMargin.plus sellMargin) = [] ∧
      c.risk = { last.risk percent with
        buy := { (last.risk percent).buy with estimatedMargin := some buyMargin }
        sell := { (last.risk percent).sell with estimatedMargin := some sellMargin } } := by
  induction attempts generalizing a reasons with
  | nil =>
    rw [confirmMargin] at h
    cases h
    cases hconfirmed
  | cons attempt rest ih =>
    rw [List.length_cons, List.range'_succ, List.cons.injEq] at hattempts
    obtain ⟨rfl, hrest⟩ := hattempts
    rw [confirmMargin] at h
    split at h
    · next buyVolume sellVolume happroved hbuy hsell =>
      simp only [bind_ok, decimal_ok, require_ok] at h
      obtain ⟨⟨buyMargin, sellMargin⟩, hanswered, _, ⟨rfl, hbuyText⟩, _, ⟨rfl, hsellText⟩, _, hpos,
        h⟩ := h
      have hconfirms : o.Confirms a percent buyVolume sellVolume buyMargin sellMargin :=
        ⟨⟨happroved, hbuy, hsell⟩, hanswered, ⟨hbuyText, hsellText⟩, hpos⟩
      split at h
      · next hreasons =>
        simp only [pure_ok] at h
        subst h
        exact ⟨a, buyVolume, sellVolume, buyMargin, sellMargin, hrun, hconfirms,
          List.isEmpty_iff.mp hreasons, rfl⟩
      · next hreasons =>
        split at h
        · simp only [pure_ok] at h
          subst h
          cases hconfirmed
        · simp only [bind_ok, decimal_ok] at h
          obtain ⟨_, ⟨rfl, -⟩, _, ⟨rfl, -⟩, h⟩ := h
          exact ih (hrun.retry hconfirms fun hnil => hreasons (List.isEmpty_iff.mpr hnil)) hrest h
    · cases h
      cases hconfirmed

/-! ### The limits, without rounding -/

theorem effectiveRisk_units {n : ℕ} {risk : Decimal} (h : o.effectiveRisk n = .ok risk) :
    0 < risk ∧ ∃ k : ℕ, k < 10 ^ 28 ∧ risk = k / 10 ^ 12 := by
  simp only [effectiveRisk, bind_ok, decimal_ok, require_ok, pure_ok] at h
  obtain ⟨multiplier, -, factor, hfactor, base, ⟨rfl, hbase⟩, cap, -, _, ⟨rfl, hcap⟩, _, hpos,
    rfl⟩ := h
  obtain ⟨b, hb, hbEq⟩ := isDecimalText_iff.mp hbase
  obtain ⟨c, hc, hcEq⟩ := isDecimalText_iff.mp hcap
  have hfactors : ∃ f : ℕ, f ≤ 100 ∧ factor = f / 100 := by
    rw [multiplierFactor.eq_def] at hfactor
    split at hfactor <;> cases hfactor
    · exact ⟨100, by norm_num, by norm_num⟩
    · exact ⟨50, by norm_num, by norm_num⟩
    · exact ⟨25, by norm_num, by norm_num⟩
  obtain ⟨f, hf, rfl⟩ := hfactors
  have hproduct : b * f < 10 ^ 28 := by nlinarith
  have hexact : o.baseRiskPercent.times (f / 100) = ((b * f : ℕ) : ℚ) / 10 ^ 12 := by
    have hunits : o.baseRiskPercent * (f / 100) = ((b * f : ℕ) : ℚ) / 10 ^ 12 := by
      rw [hbEq]
      push_cast
      ring
    rw [Decimal.times, hunits]
    exact Decimal.exact_nat (b * f) 12 rfl (by omega)
  refine ⟨hpos, ?_⟩
  rw [hexact]
  rcases min_choice (((b * f : ℕ) : ℚ) / 10 ^ 12) cap with hmin | hmin <;> rw [hmin]
  · exact ⟨b * f, hproduct, rfl⟩
  · refine ⟨c * 100, by omega, ?_⟩
    rw [hcEq]
    push_cast
    ring

/-- A margin within what the loss reserve leaves is free beside the whole modelled setup loss. -/
theorem loss_add_le_available {available equity reserved margin : Decimal}
    (havailable : isDecimalText available) (hequity : isDecimalText equity)
    (hreserved : ∃ k : ℕ, k < 10 ^ 28 ∧ reserved = k / 10 ^ 12) (hpos : 0 < margin)
    (h : margin ≤ freeMarginAfterLossReserve available equity reserved) :
    equity * reserved / 100 + margin ≤ available := by
  obtain ⟨e, -, he⟩ := isDecimalText_iff.mp hequity
  obtain ⟨k, -, hk⟩ := hreserved
  have hproduct : equity * reserved = ((e * k : ℕ) : ℚ) / 10 ^ 22 := by
    rw [he, hk]
    push_cast
    ring
  have hnonneg : 0 ≤ equity * reserved := by
    rw [hproduct]
    positivity
  have htimes := Decimal.times_nonneg hnonneg
  have hshare : 0 ≤ (equity.times reserved).div 100 := nonneg_div htimes (by norm_num)
  have hround := Decimal.le_toDecimalPlacesUp 10 hshare
  rw [freeMarginAfterLossReserve, le_max_iff] at h
  have hminus := h.resolve_left (not_le.mpr hpos)
  have hdifference := Significant.nonneg_of_truncate_nonneg (by decide) (hpos.le.trans hminus)
  have hfree := hminus.trans (truncate_le hdifference)
  rcases lt_or_ge (e * k) (10 ^ 40) with hfits | hlarge
  · have hexact : (equity.times reserved).div 100 = equity * reserved / 100 := by
      have htimesEq : equity.times reserved = equity * reserved := by
        rw [Decimal.times, hproduct]
        exact Decimal.exact_nat (e * k) 22 rfl hfits
      rw [htimesEq, Decimal.div, hproduct]
      exact Decimal.exact_nat (e * k) 24 (by ring) hfits
    rw [hexact] at hround hfree
    linarith
  -- a loss beyond the digits leaves no margin at all
  · have hcast : (10 : ℚ) ^ 40 ≤ ((e * k : ℕ) : ℚ) := by exact_mod_cast hlarge
    have hbig : (10 : ℚ) ^ 18 ≤ equity.times reserved := by
      refine ((Significant.fits_pow (by decide)).le_truncate_iff (by decide) (by norm_num)).mpr ?_
      rw [hproduct, le_div_iff₀ (by norm_num)]
      linarith
    have hreserve : (10 : ℚ) ^ 16 ≤ (equity.times reserved).div 100 := by
      refine ((Significant.fits_pow (by decide)).le_truncate_iff (by decide) (by norm_num)).mpr ?_
      rw [le_div_iff₀ (by norm_num)]
      linarith
    have hlt := (text_bounds havailable).2
    linarith

/-- A margin within the usage limit, as computed, is within it. -/
theorem usage_le {available equity usage margin : Decimal} (havailable : isDecimalText available)
    (hequity : isDecimalText equity) (husage : 0 ≤ usage) (hmargin : Decimal.InPlaces margin)
    (hmarginNonneg : 0 ≤ margin) (hmarginLt : margin < 2 * 10 ^ 16)
    (h : (currentMargin equity available).plus margin ≤ (equity.times usage).div 100) :
    max 0 (equity - available) + margin ≤ equity * usage / 100 := by
  obtain ⟨havailableNonneg, havailableLt⟩ := text_bounds havailable
  obtain ⟨hequityNonneg, hequityLt⟩ := text_bounds hequity
  have hdifference := (text_inPlaces hequity).sub (text_inPlaces havailable)
  have hcurrent : currentMargin equity available = max 0 (equity - available) := by
    rw [currentMargin, minus_texts hequity havailable]
  have hplaces : Decimal.InPlaces (max 0 (equity - available)) := by
    rcases max_choice 0 (equity - available) with hmax | hmax <;> rw [hmax]
    · exact ⟨0, by norm_num⟩
    · exact hdifference
  have hbounds : 0 ≤ max 0 (equity - available) ∧ max 0 (equity - available) < 10 ^ 16 :=
    ⟨le_max_left _ _, max_lt (by norm_num) (by linarith)⟩
  rw [hcurrent, hplaces.plus_eq hmargin (by rw [abs_of_nonneg] <;> linarith)] at h
  have hproduct := mul_nonneg hequityNonneg husage
  have htimes := Decimal.times_nonneg hproduct
  calc _ ≤ (equity.times usage).div 100 := h
    _ ≤ equity.times usage / 100 := Decimal.div_le (div_nonneg htimes (by norm_num))
    _ ≤ equity * usage / 100 :=
      div_le_div_of_nonneg_right (Decimal.times_le hproduct) (by norm_num)

/-! ### The approved pair -/

variable (o) in
/-- The first attempt, from the margins of the minimum volume. -/
def firstAttempt (input : OcoEvaluationInput) (reserved percent buyMinimum sellMinimum : Decimal) :
    Attempt :=
  let equity := input.account.equity
  let available := input.account.availableMargin
  let leg := o.legInput input (freeMarginAfterLossReserve available equity reserved)
    (currentMargin equity available) percent
  { number := 0
    buy := leg input.response.buyStop (marginPerVolume buyMinimum input.metadata.minVolume)
    sell := leg input.response.sellStop (marginPerVolume sellMinimum input.metadata.minVolume) }

variable (o) in
/-- The attempts of an evaluation that reads these percents and minimum margins. -/
def Attempts (input : OcoEvaluationInput) (reserved percent buyMinimum sellMinimum : Decimal) :
    Attempt → Prop :=
  let equity := input.account.equity
  let available := input.account.availableMargin
  o.Attempted percent (freeMarginAfterLossReserve available equity reserved)
    (currentMargin equity available) equity
    (o.firstAttempt input reserved percent buyMinimum sellMinimum)

/-- An attempt differs from the first in the estimates alone. -/
theorem attempted_legs {percent freeMargin currentMargin equity : Decimal} {first a : Attempt}
    (h : o.Attempted percent freeMargin currentMargin equity first a) :
    ∃ p q, a.buy = first.buy.estimated p ∧ a.sell = first.sell.estimated q := by
  induction h with
  | first => exact ⟨_, _, rfl, rfl⟩
  | retry _ _ _ ih =>
    obtain ⟨p, q, hbuy, hsell⟩ := ih
    exact ⟨_, _, by rw [Attempt.retry, hbuy]; rfl, by rw [Attempt.retry, hsell]; rfl⟩

theorem twice_legPercent_le {percent : Decimal} (h : isDecimalText percent) :
    2 * legPercent percent ≤ percent := by
  have hhalf : 0 ≤ percent / 2 := div_nonneg (text_bounds h).1 (by norm_num)
  have hle := Decimal.toDecimalPlacesDown_le 10 hhalf
  rw [legPercent, half_eq h]
  linarith

/-- What both legs of an approved pair lose together. -/
theorem combined_loss_le {percent equity : Decimal} {a : Attempt}
    (happroved : (a.risk percent).approved) (hequity : 0 ≤ equity) (hbuy : a.buy.equity = equity)
    (hsell : a.sell.equity = equity) : ∃ loss, (a.risk percent).combinedMaximumLoss = some loss ∧
      loss ≤ equity * percent / 100 := by
  obtain ⟨htext, buyLoss, sellLoss, hbuyLoss, hsellLoss, hbuyLe, hsellLe⟩ :=
    sizeOcoPair_sized hbuy hsell happroved
  obtain ⟨_, _, buy, sell, buyLoss', sellLoss', -, -, -, -, hbuyEq, hsellEq, hbuyLoss', hsellLoss',
    hcombined, hbuyText, hsellText⟩ := sizeOcoPair_approved happroved
  rw [hbuyEq, hbuyLoss', Option.some_inj] at hbuyLoss
  rw [hsellEq, hsellLoss', Option.some_inj] at hsellLoss
  subst hbuyLoss hsellLoss
  refine ⟨_, hcombined, ?_⟩
  have hsum := add_nonneg (text_bounds hbuyText).1 (text_bounds hsellText).1
  calc buyLoss'.plus sellLoss' ≤ buyLoss' + sellLoss' := truncate_le hsum
    _ ≤ equity * (2 * legPercent percent) / 100 := by linarith
    _ ≤ equity * percent / 100 := by
      have hpercent := mul_le_mul_of_nonneg_left (twice_legPercent_le htext) hequity
      linarith

/-- A pair that is approved, whatever the margin estimator answers: the estimator has last answered
    for exactly the volumes of its commands, with margins that fit beside the whole setup loss and
    within the usage limit; the modelled loss of both legs is within the setup budget; the volumes
    are on the grid; and no retry of the evaluation has enlarged a volume. -/
theorem evaluate_confirmed (o : OcoRiskEvaluatorOptions) (host : Host) (input : OcoEvaluationInput)
    (happroved : (o.evaluate host input).approved) (hside : input.selectedSide = none) :
    ∃ reserved percent buyMinimum sellMinimum last buy sell buyMargin sellMargin loss,
      o.effectiveRisk 0 = .ok reserved ∧ o.effectiveRisk 1 = .ok percent ∧
      o.Attempts input reserved percent buyMinimum sellMinimum last ∧
      (o.evaluate host input).commands = some (buy, sell) ∧
      o.Confirms last percent buy.volume sell.volume buyMargin sellMargin ∧
      input.account.equity * reserved / 100 + (buyMargin + sellMargin) ≤
        input.account.availableMargin ∧
      max 0 (input.account.equity - input.account.availableMargin) + (buyMargin + sellMargin) ≤
        input.account.equity * o.maxMarginUsagePercent / 100 ∧
      (o.evaluate host input).risk.bind OcoRiskDecision.combinedMaximumLoss = some loss ∧
      loss ≤ input.account.equity * percent / 100 ∧
      SymbolMetadata.OnGrid input.metadata buy.volume ∧
      SymbolMetadata.OnGrid input.metadata sell.volume ∧
      ∀ a buyVolume sellVolume margins margins' buyVolume' sellVolume',
        o.Attempts input reserved percent buyMinimum sellMinimum a →
        o.Confirms a percent buyVolume sellVolume margins margins' →
        (a.retry buyVolume sellVolume margins margins').Sized percent buyVolume' sellVolume' →
        buyVolume' ≤ buyVolume ∧ sellVolume' ≤ sellVolume := by
  rcases evaluate_ok rfl happroved with ⟨side, hsome, -⟩ | ⟨-, hpair⟩
  · rw [hside] at hsome
    cases hsome
  generalize o.evaluate host input = e at happroved hpair
  simp only [evaluatePair, bind_ok, decimal_ok] at hpair
  obtain ⟨⟨buyMinimum, sellMinimum⟩, -, _, ⟨rfl, hequity⟩, _, ⟨rfl, havailable⟩, reserved,
    hreserved, percent, hpercent, c, hconfirm, hpair⟩ := hpair
  split at hpair
  · next buyVolume sellVolume hconfirmed hrisk hbuy hsell =>
    simp only [bind_ok, decimal_ok, pure_ok] at hpair
    obtain ⟨_, -, _, -, rfl⟩ := hpair
    simp only [confirmPair, bind_ok, decimal_ok] at hconfirm
    obtain ⟨_, ⟨rfl, -⟩, _, ⟨rfl, -⟩, _, ⟨rfl, -⟩, hconfirm⟩ := hconfirm
    have hfirst : o.Attempts input reserved percent buyMinimum sellMinimum
        (o.firstAttempt input reserved percent buyMinimum sellMinimum) := .first
    obtain ⟨last, buyVolume', sellVolume', buyMargin, sellMargin, hrun, hconfirms, hreasons, hc⟩ :=
      confirmMargin_run hfirst rfl hconfirm hconfirmed
    rw [hc, hconfirms.sized.buy, Option.some_inj] at hbuy
    rw [hc, hconfirms.sized.sell, Option.some_inj] at hsell
    subst hbuy hsell
    obtain ⟨p, q, hlastBuy, hlastSell⟩ := attempted_legs hrun
    obtain ⟨_, _, _, _, _, _, -, -, hbuySize, hsellSize, hbuyEq, hsellEq, -⟩ :=
      sizeOcoPair_approved hconfirms.sized.approved
    obtain ⟨loss, hloss, hlossLe⟩ := combined_loss_le hconfirms.sized.approved
      (text_bounds hequity).1 (by rw [hlastBuy]; rfl) (by rw [hlastSell]; rfl)
    have hbuyGrid := sizeVolume_onGrid hbuySize (hbuyEq ▸ hconfirms.sized.buy)
    have hsellGrid := sizeVolume_onGrid hsellSize (hsellEq ▸ hconfirms.sized.sell)
    obtain ⟨hbuyPlaces, hsellPlaces⟩ := hconfirms.texts.imp text_inPlaces text_inPlaces
    obtain ⟨hbuyText, hsellText⟩ := hconfirms.texts.imp text_bounds text_bounds
    have hplus := plus_texts hconfirms.texts.1 hconfirms.texts.2
    rw [marginReasons, hplus, List.append_eq_nil_iff, ite_eq_right_iff, ite_eq_right_iff]
      at hreasons
    have hfree := not_lt.mp fun hlt => List.cons_ne_nil _ _ (hreasons.1 hlt)
    have husage := not_lt.mp fun hlt => List.cons_ne_nil _ _ (hreasons.2 hlt)
    have hpos := add_pos hconfirms.positive.1 hconfirms.positive.2
    have husageNonneg : 0 ≤ o.maxMarginUsagePercent := by
      have hvalid := (valid_of_sizeVolume hbuySize).usage.2.1
      rw [hlastBuy] at hvalid
      exact hvalid.le
    refine ⟨reserved, percent, buyMinimum, sellMinimum, last, _, _, buyMargin, sellMargin, loss,
      hreserved, hpercent, hrun, rfl, hconfirms, ?_, ?_, ?_, hlossLe, ?_, ?_, ?_⟩
    · exact loss_add_le_available havailable hequity (effectiveRisk_units hreserved).2 hpos hfree
    · exact usage_le havailable hequity husageNonneg (hbuyPlaces.add hsellPlaces) hpos.le
        (by linarith) husage
    · rw [Option.bind_some, hc]
      exact hloss
    · rw [hlastBuy] at hbuyGrid
      exact hbuyGrid
    · rw [hlastSell] at hsellGrid
      exact hsellGrid
    · intro a buyVolume sellVolume margin margin' buyVolume' sellVolume' _ ha hretry
      exact Attempt.retry_volumes ha.sized hretry
  · simp only [bind_ok, pure_ok] at hpair
    obtain ⟨_, -, rfl⟩ := hpair
    cases happroved

end OcoRiskEvaluatorOptions

/-! ### A broker with margins by tiers -/

namespace TieredSample

/-- The first confirmation asks for more margin than the estimates of the minimum volume. -/
def options : OcoRiskEvaluatorOptions :=
  { Sample.options with
    riskPercentCap := none
    marginEstimator := fun n _ _ volume =>
      .ok (if n < 4 ∧ 1 < volume then 2000 + volume * volume else volume * 100) }

end TieredSample

/-- The pair is approved at the second attempt, with ten units for each leg. -/
theorem evaluate_confirmed_tiered : ∃ buy sell, ∃ buyMargin sellMargin : Decimal,
    (TieredSample.options.evaluate Sample.host Sample.input).commands = some (buy, sell) ∧
    buy.volume = 10 ∧ sell.volume = 10 ∧ 100 + (buyMargin + sellMargin) ≤ 10000 ∧
    buyMargin + sellMargin ≤ 3000 := by
  obtain ⟨reserved, percent, _, _, last, buy, sell, buyMargin, sellMargin, loss, hreserved, -, -,
    hcommands, -, hfree, husage, -⟩ :=
    OcoRiskEvaluatorOptions.evaluate_confirmed TieredSample.options Sample.host Sample.input
      (by decide +kernel) rfl
  have hreservedEq : TieredSample.options.effectiveRisk 0 = .ok 1 := by decide +kernel
  have hvolumes : (TieredSample.options.evaluate Sample.host Sample.input).commands.map
      (fun commands => (commands.1.volume, commands.2.volume)) = some (10, 10) := by decide +kernel
  rw [hreservedEq, Except.ok.injEq] at hreserved
  rw [hcommands, Option.map_some, Option.some_inj, Prod.mk.injEq] at hvolumes
  subst hreserved
  norm_num [Sample.input, TieredSample.options, Sample.options] at hfree husage
  exact ⟨buy, sell, buyMargin, sellMargin, hcommands, hvolumes.1, hvolumes.2, hfree, husage⟩

end ScalpingBot.Risk
