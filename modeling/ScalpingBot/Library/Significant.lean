import Mathlib.Data.Int.Log
import Mathlib.Data.Nat.Log
import Mathlib.Data.Rat.Floor
import Mathlib.Algebra.Order.Field.Rat
import Mathlib.Tactic.Linarith
import Mathlib.Tactic.Positivity

/-! Arithmetic in a decimal format with a fixed number of significant digits: every operation
    computes its exact result and drops the digits that do not fit. -/

namespace ScalpingBot.Significant

/-- The weight of the last of `p` significant decimal digits of `q`. -/
def unit (p : ℕ) (q : ℚ) : ℚ := 10 ^ (Int.log 10 |q| + 1 - p : ℤ)

/-- Keep `p` significant digits, rounding toward zero. -/
def truncate (p : ℕ) (q : ℚ) : ℚ :=
  let kept := (⌊|q| / unit p q⌋₊ : ℚ) * unit p q
  if q < 0 then -kept else kept

variable {p : ℕ} {q : ℚ}

theorem unit_pos (p : ℕ) (q : ℚ) : 0 < unit p q := zpow_pos (by norm_num) _

theorem truncate_of_nonneg (h : 0 ≤ q) :
    truncate p q = (⌊q / unit p q⌋₊ : ℚ) * unit p q := by
  simp [truncate, not_lt.mpr h, abs_of_nonneg h]

theorem truncate_nonneg (h : 0 ≤ q) : 0 ≤ truncate p q := by
  rw [truncate_of_nonneg h]
  exact mul_nonneg (Nat.cast_nonneg _) (unit_pos p q).le

/-- Rounding toward zero never enlarges. -/
theorem truncate_le (h : 0 ≤ q) : truncate p q ≤ q := by
  rw [truncate_of_nonneg h]
  have hfloor := Nat.floor_le (div_nonneg h (unit_pos p q).le)
  calc (⌊q / unit p q⌋₊ : ℚ) * unit p q
      ≤ q / unit p q * unit p q := mul_le_mul_of_nonneg_right hfloor (unit_pos p q).le
    _ = q := div_mul_cancel₀ q (unit_pos p q).ne'

@[simp] theorem truncate_zero (p : ℕ) : truncate p 0 = 0 := by
  simp [truncate]

theorem truncate_neg (p : ℕ) (q : ℚ) : truncate p (-q) = -truncate p q := by
  have hunit : unit p (-q) = unit p q := by rw [unit, unit, abs_neg]
  rcases lt_trichotomy q 0 with h | rfl | h
  · simp [truncate, hunit, h, h.le]
  · simp
  · simp [truncate, hunit, h, h.le]

theorem truncate_nonpos (h : q ≤ 0) : truncate p q ≤ 0 := by
  have hneg := truncate_nonneg (p := p) (neg_nonneg.mpr h)
  rw [truncate_neg] at hneg
  linarith

theorem abs_truncate (p : ℕ) (q : ℚ) : |truncate p q| = truncate p |q| := by
  rcases le_total 0 q with h | h
  · rw [abs_of_nonneg h, abs_of_nonneg (truncate_nonneg h)]
  · rw [abs_of_nonpos h, abs_of_nonpos (truncate_nonpos h), truncate_neg]

/-- A number whose digits fit is kept. -/
theorem truncate_eq {n : ℤ} {k : ℕ} (hq : q = n / 10 ^ k) (hn : |n| < 10 ^ p) :
    truncate p q = q := by
  rcases eq_or_ne q 0 with h0 | h0
  · rw [h0, truncate_zero]
  have habs : |q| = |n| / 10 ^ k := by
    rw [hq, abs_div, abs_of_pos (by positivity : (0 : ℚ) < 10 ^ k), Int.cast_abs]
  have hpos : 0 < |q| := abs_pos.mpr h0
  have hlog : Int.log 10 |q| < p - k := by
    have hcast : ((|n| : ℤ) : ℚ) < 10 ^ p := by exact_mod_cast hn
    rw [← Int.lt_zpow_iff_log_lt (by norm_num) hpos, habs, Nat.cast_ofNat,
      zpow_sub₀ (by norm_num), zpow_natCast, zpow_natCast]
    exact div_lt_div_of_pos_right hcast (by positivity)
  obtain ⟨j, hj⟩ : ∃ j : ℕ, Int.log 10 |q| + 1 - p = -(k + j : ℕ) :=
    ⟨(p - k - (Int.log 10 |q| + 1)).toNat, by push_cast; omega⟩
  have hdiv : |q| / unit p q = (n.natAbs * 10 ^ j : ℕ) := by
    rw [unit, hj, habs, zpow_neg, zpow_natCast, div_inv_eq_mul, pow_add]
    push_cast
    rw [Nat.cast_natAbs, Int.cast_abs]
    field_simp
  rw [truncate]
  simp only [hdiv, Nat.floor_natCast]
  rw [← hdiv, div_mul_cancel₀ _ (unit_pos p q).ne']
  split
  · next h => rw [abs_of_neg h, neg_neg]
  · next h => rw [abs_of_nonneg (not_lt.mp h)]

/-! ### Order -/

theorem zpow_log_le (h : 0 < q) : (10 : ℚ) ^ Int.log 10 q ≤ q := by
  simpa using Int.zpow_log_le_self (b := 10) (by norm_num) h

/-- The leading digit of a positive number is kept. -/
theorem zpow_log_le_truncate (hp : 0 < p) (h : 0 < q) :
    (10 : ℚ) ^ Int.log 10 q ≤ truncate p q := by
  have hu := unit_pos p q
  have hunit : (10 : ℚ) ^ Int.log 10 q = (10 ^ (p - 1) : ℕ) * unit p q := by
    rw [unit, abs_of_pos h, Nat.cast_pow, Nat.cast_ofNat, ← zpow_natCast, ← zpow_add₀ (by norm_num)]
    congr 1
    omega
  rw [truncate_of_nonneg h.le, hunit]
  refine mul_le_mul_of_nonneg_right ?_ hu.le
  refine Nat.cast_le.mpr (Nat.le_floor ?_)
  rw [le_div_iff₀ hu, ← hunit]
  exact zpow_log_le h

/-- What has been rounded stays as it is. -/
theorem truncate_truncate (hp : 0 < p) (q : ℚ) : truncate p (truncate p q) = truncate p q := by
  have hpos {q : ℚ} (h : 0 < q) : truncate p (truncate p q) = truncate p q := by
    have hlead := zpow_log_le_truncate hp h
    have hr : 0 < truncate p q := (zpow_pos (by norm_num) _).trans_le hlead
    have hlog : Int.log 10 (truncate p q) = Int.log 10 q :=
      le_antisymm (Int.log_mono_right hr (truncate_le h.le))
        ((Int.zpow_le_iff_le_log (by norm_num) hr).mp (by simpa using hlead))
    have hunit : unit p (truncate p q) = unit p q := by
      rw [unit, unit, abs_of_pos hr, abs_of_pos h, hlog]
    rw [truncate_of_nonneg hr.le, hunit, truncate_of_nonneg h.le,
      mul_div_cancel_right₀ _ (unit_pos p q).ne', Nat.floor_natCast]
  rcases lt_trichotomy q 0 with h | rfl | h
  · have := hpos (neg_pos.mpr h)
    rwa [truncate_neg, truncate_neg, neg_inj] at this
  · rw [truncate_zero, truncate_zero]
  · exact hpos h

/-- Rounding keeps the sign. -/
theorem nonneg_of_truncate_nonneg (hp : 0 < p) (h : 0 ≤ truncate p q) : 0 ≤ q := by
  by_contra hneg
  have hlt := not_le.mp hneg
  have hpos : 0 < |q| := abs_pos.mpr hlt.ne
  have hlead := zpow_log_le_truncate hp hpos
  have hweight : (0 : ℚ) < 10 ^ Int.log 10 |q| := zpow_pos (by norm_num) _
  have hsame : truncate p q = -truncate p |q| := by
    rw [truncate_of_nonneg hpos.le, truncate, unit, unit, abs_abs]
    simp only [if_pos hlt]
  rw [hsame] at h
  linarith

theorem truncate_mono {r : ℚ} (hp : 0 < p) (hq : 0 ≤ q) (h : q ≤ r) :
    truncate p q ≤ truncate p r := by
  rcases hq.eq_or_lt with rfl | hpos
  · rw [truncate_zero]
    exact truncate_nonneg h
  have hlog : Int.log 10 q ≤ Int.log 10 r := Int.log_mono_right hpos h
  rcases hlog.eq_or_lt with heq | hlt
  · have hunit : unit p q = unit p r := by
      rw [unit, unit, abs_of_pos hpos, abs_of_pos (hpos.trans_le h), heq]
    rw [truncate_of_nonneg hq, truncate_of_nonneg (hq.trans h), hunit]
    have hu := unit_pos p r
    gcongr
  -- the larger number has more digits before the point: its leading digit alone is enough
  · calc truncate p q ≤ q := truncate_le hq
      _ ≤ 10 ^ (Int.log 10 q + 1) := (Int.lt_zpow_succ_log_self (b := 10) (by norm_num) q).le
      _ ≤ 10 ^ Int.log 10 r := zpow_le_zpow_right₀ (by norm_num) hlt
      _ ≤ truncate p r := zpow_log_le_truncate hp (hpos.trans_le h)

/-- A bound whose digits fit survives the rounding. -/
theorem le_truncate {c : ℚ} {n : ℤ} {k : ℕ} (hp : 0 < p) (hc : 0 ≤ c) (hfit : c = n / 10 ^ k)
    (hn : |n| < 10 ^ p) (h : c ≤ q) : c ≤ truncate p q := by
  rw [← truncate_eq hfit hn]
  exact truncate_mono hp hc h

/-- A number of at most `p` significant digits. -/
def Fits (p : ℕ) (q : ℚ) : Prop := ∃ (n : ℤ) (k : ℕ), q = n / 10 ^ k ∧ |n| < 10 ^ p

theorem fits_nat {n k : ℕ} (h : n < 10 ^ p) : Fits p (n / 10 ^ k) :=
  ⟨n, k, by rw [Int.cast_natCast], by rw [abs_of_nonneg (by positivity)]; exact_mod_cast h⟩

theorem fits_pow {n : ℕ} (h : n < p) : Fits p ((10 : ℚ) ^ n) := by
  have hfits : Fits p (((10 ^ n : ℕ) : ℚ) / 10 ^ 0) :=
    fits_nat (Nat.pow_lt_pow_right (by norm_num) h)
  rwa [pow_zero, div_one, Nat.cast_pow, Nat.cast_ofNat] at hfits

theorem Fits.truncate_eq (h : Fits p q) : truncate p q = q := by
  obtain ⟨n, k, hq, hn⟩ := h
  exact Significant.truncate_eq hq hn

/-- Rounding does not move a number across one that fits. -/
theorem Fits.le_truncate_iff {c : ℚ} (h : Fits p c) (hp : 0 < p) (hc : 0 ≤ c) :
    c ≤ truncate p q ↔ c ≤ q := by
  obtain ⟨n, k, hfit, hn⟩ := h
  refine ⟨fun hle => ?_, le_truncate hp hc hfit hn⟩
  exact hle.trans (truncate_le (nonneg_of_truncate_nonneg hp (hc.trans hle)))

/-! ### Floors and ceilings -/

/-- A quotient that is no integer does not reach one by the rounding. -/
theorem floor_lt_truncate {a : ℤ} {b : ℕ} (hb : 0 < b) (ha : 0 ≤ a) (hfit : 10 * a + 1 < 10 ^ p)
    (hp : 0 < p) (h : (⌊(a / b : ℚ)⌋ : ℚ) < a / b) :
    (⌊(a / b : ℚ)⌋ : ℚ) < truncate p (a / b) := by
  have hbpos : (0 : ℚ) < b := by exact_mod_cast hb
  set n := ⌊(a / b : ℚ)⌋ with hn
  have hn0 : 0 ≤ n := Int.floor_nonneg.mpr (div_nonneg (by exact_mod_cast ha) hbpos.le)
  have hlt : n * b < a := by
    rw [lt_div_iff₀ hbpos] at h
    exact_mod_cast h
  -- the integer and one unit of a digit that the quotient still exceeds
  obtain ⟨k, hk, hk'⟩ : ∃ k : ℕ, b ≤ 10 ^ k ∧ 10 ^ k ≤ 10 * b := by
    refine ⟨Nat.log 10 b + 1, (Nat.lt_pow_succ_log_self (by norm_num) b).le, ?_⟩
    rw [pow_succ, mul_comm]
    exact Nat.mul_le_mul_left 10 (Nat.pow_log_le_self 10 hb.ne')
  have hkpos : (0 : ℚ) < 10 ^ k := by positivity
  have hle : ((n * 10 ^ k + 1 : ℤ) : ℚ) / 10 ^ k ≤ a / b := by
    rw [div_le_div_iff₀ hkpos hbpos]
    have hscaled : (n * 10 ^ k + 1) * b ≤ a * 10 ^ k := by
      have hbk : (b : ℤ) ≤ 10 ^ k := by exact_mod_cast hk
      nlinarith
    exact_mod_cast hscaled
  have hnumerator : |n * 10 ^ k + 1| < 10 ^ p := by
    have hbk : (10 : ℤ) ^ k ≤ 10 * b := by exact_mod_cast hk'
    rw [abs_of_nonneg (by positivity)]
    nlinarith
  calc (n : ℚ) < ((n * 10 ^ k + 1 : ℤ) : ℚ) / 10 ^ k := by
        rw [lt_div_iff₀ hkpos]
        push_cast
        linarith
    _ ≤ truncate p (a / b) := le_truncate hp (by positivity) rfl hnumerator hle

/-- The rounding of a nonnegative quotient has the same floor and ceiling. -/
theorem floor_ceil_truncate_of_nonneg {a : ℤ} {b : ℕ} (hb : 0 < b) (ha : 0 ≤ a)
    (hfit : 10 * a + 1 < 10 ^ p) (hp : 0 < p) :
    ⌊truncate p (a / b)⌋ = ⌊(a / b : ℚ)⌋ ∧ ⌈truncate p (a / b)⌉ = ⌈(a / b : ℚ)⌉ := by
  have hbpos : (0 : ℚ) < b := by exact_mod_cast hb
  have hq : (0 : ℚ) ≤ a / b := div_nonneg (by exact_mod_cast ha) hbpos.le
  rcases (Int.floor_le (a / b : ℚ)).eq_or_lt with heq | hlt
  · have hn : 0 ≤ ⌊(a / b : ℚ)⌋ := Int.floor_nonneg.mpr hq
    have hle : ⌊(a / b : ℚ)⌋ * b ≤ a := by
      have h := heq.le
      rw [le_div_iff₀ hbpos] at h
      exact_mod_cast h
    have hfits : |⌊(a / b : ℚ)⌋| < 10 ^ p := by
      have hb' : (1 : ℤ) ≤ b := by exact_mod_cast hb
      rw [abs_of_nonneg hn]
      nlinarith
    have hexact : truncate p (a / b : ℚ) = a / b :=
      truncate_eq (n := ⌊(a / b : ℚ)⌋) (k := 0) (by rw [heq, pow_zero, div_one]) hfits
    rw [hexact]
    exact ⟨rfl, rfl⟩
  · have habove := floor_lt_truncate hb ha hfit hp hlt
    have hle := truncate_le (p := p) hq
    have hnext := Int.lt_floor_add_one (a / b : ℚ)
    refine ⟨Int.floor_eq_iff.mpr ⟨habove.le, hle.trans_lt hnext⟩, ?_⟩
    have hceil : ⌈(a / b : ℚ)⌉ = ⌊(a / b : ℚ)⌋ + 1 := by
      refine Int.ceil_eq_iff.mpr ⟨?_, ?_⟩
      · push_cast
        linarith
      · push_cast
        exact hnext.le
    rw [hceil, Int.ceil_eq_iff]
    push_cast
    exact ⟨by linarith, by linarith⟩

/-- The rounding of a quotient has the same floor and ceiling. -/
theorem floor_ceil_truncate {a : ℤ} {b : ℕ} (hb : 0 < b) (hfit : 10 * |a| + 1 < 10 ^ p)
    (hp : 0 < p) :
    ⌊truncate p (a / b)⌋ = ⌊(a / b : ℚ)⌋ ∧ ⌈truncate p (a / b)⌉ = ⌈(a / b : ℚ)⌉ := by
  rcases le_total 0 a with ha | ha
  · rw [abs_of_nonneg ha] at hfit
    exact floor_ceil_truncate_of_nonneg hb ha hfit hp
  · rw [abs_of_nonpos ha] at hfit
    obtain ⟨hfloor, hceil⟩ := floor_ceil_truncate_of_nonneg hb (neg_nonneg.mpr ha) hfit hp
    have hq : (a / b : ℚ) = -((-a : ℤ) / b) := by
      push_cast
      ring
    rw [hq, truncate_neg, Int.floor_neg, Int.floor_neg, Int.ceil_neg, Int.ceil_neg, hfloor, hceil]
    exact ⟨rfl, rfl⟩

end ScalpingBot.Significant
