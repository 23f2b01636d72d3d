import Mathlib.Algebra.Ring.Int.Parity
import Mathlib.Algebra.Order.Floor.Ring
import ScalpingBot.Library.Rounded
import ScalpingBot.Library.Significant

/-! Arithmetic in a decimal format with a fixed number of significant digits that rounds to the nearest
    number, and to the even one of two. -/

namespace ScalpingBot.HalfEven

open Significant

/-- The nearest integer, the even one of two. -/
def nearest (x : ℚ) : ℤ :=
  if Int.fract x < 1 / 2 then ⌊x⌋
  else if 1 / 2 < Int.fract x then ⌊x⌋ + 1
  else if Even ⌊x⌋ then ⌊x⌋ else ⌊x⌋ + 1

theorem floor_le_nearest (x : ℚ) : ⌊x⌋ ≤ nearest x := by
  rw [nearest]
  split_ifs <;> omega

theorem nearest_le_succ (x : ℚ) : nearest x ≤ ⌊x⌋ + 1 := by
  rw [nearest]
  split_ifs <;> omega

theorem nearest_intCast (n : ℤ) : nearest n = n := by
  rw [nearest, Int.fract_intCast, if_pos (by norm_num), Int.floor_intCast]

theorem nearest_mono {x y : ℚ} (h : x ≤ y) : nearest x ≤ nearest y := by
  rcases (Int.floor_le_floor h).eq_or_lt with heq | hlt
  · have hfract : Int.fract x ≤ Int.fract y := by
      rw [Int.fract, Int.fract, heq]
      linarith
    rw [nearest, nearest, heq]
    split_ifs <;> first | omega | (exfalso; linarith)
  · exact (nearest_le_succ x).trans ((Int.add_one_le_iff.mpr hlt).trans (floor_le_nearest y))

variable {p : ℕ} {q : ℚ}

/-- Keep `p` significant digits of the magnitude. -/
def keep (p : ℕ) (q : ℚ) : ℚ :=
  let kept := (nearest (|q| / unit p q) : ℚ) * unit p q
  if q < 0 then -kept else kept

theorem keep_of_nonneg (h : 0 ≤ q) : keep p q = (nearest (q / unit p q) : ℚ) * unit p q := by
  simp [keep, not_lt.mpr h, abs_of_nonneg h]

theorem keep_nonneg (h : 0 ≤ q) : 0 ≤ keep p q := by
  rw [keep_of_nonneg h]
  have hzero := nearest_mono (div_nonneg h (unit_pos p q).le)
  rw [← Int.cast_zero, nearest_intCast] at hzero
  exact mul_nonneg (by exact_mod_cast hzero) (unit_pos p q).le

theorem keep_zero : keep p 0 = 0 := by
  have := nearest_intCast 0
  rw [Int.cast_zero] at this
  simp [keep, this]

theorem keep_neg (q : ℚ) : keep p (-q) = -keep p q := by
  have hunit : unit p (-q) = unit p q := by rw [unit, unit, abs_neg]
  rcases lt_trichotomy q 0 with h | rfl | h
  · simp [keep, hunit, h, h.le]
  · rw [neg_zero, keep_zero, neg_zero]
  · simp [keep, hunit, h, h.le]

/-- The largest number of a decade rounds to the next decade at most. -/
theorem keep_le_zpow (h : 0 < q) : keep p q ≤ 10 ^ (Int.log 10 q + 1) := by
  have hu := unit_pos p q
  have hunit : (10 : ℚ) ^ (Int.log 10 q + 1) = ((10 ^ p : ℤ) : ℚ) * unit p q := by
    rw [unit, abs_of_pos h, Int.cast_pow, Int.cast_ofNat, ← zpow_natCast, ← zpow_add₀ (by norm_num)]
    congr 1
    omega
  rw [keep_of_nonneg h.le, hunit]
  refine mul_le_mul_of_nonneg_right (Int.cast_le.mpr ?_) hu.le
  rw [← nearest_intCast (10 ^ p)]
  refine nearest_mono ?_
  rw [div_le_iff₀ hu, ← hunit]
  exact (Int.lt_zpow_succ_log_self (b := 10) (by norm_num) q).le

/-- The smallest number of a decade is kept. -/
theorem zpow_le_keep (hp : 0 < p) (h : 0 < q) : 10 ^ Int.log 10 q ≤ keep p q := by
  have hu := unit_pos p q
  have hunit : (10 : ℚ) ^ Int.log 10 q = ((10 ^ (p - 1) : ℤ) : ℚ) * unit p q := by
    rw [unit, abs_of_pos h, Int.cast_pow, Int.cast_ofNat, ← zpow_natCast, ← zpow_add₀ (by norm_num)]
    congr 1
    omega
  rw [keep_of_nonneg h.le, hunit]
  refine mul_le_mul_of_nonneg_right (Int.cast_le.mpr ?_) hu.le
  rw [← nearest_intCast (10 ^ (p - 1))]
  refine nearest_mono ?_
  rw [le_div_iff₀ hu, ← hunit]
  exact zpow_log_le h

theorem keep_mono_of_pos {r : ℚ} (hp : 0 < p) (hq : 0 < q) (h : q ≤ r) : keep p q ≤ keep p r := by
  have hr := hq.trans_le h
  rcases (Int.log_mono_right (b := 10) hq h).eq_or_lt with heq | hlt
  · have hunit : unit p q = unit p r := by
      rw [unit, unit, abs_of_pos hq, abs_of_pos hr, heq]
    rw [keep_of_nonneg hq.le, keep_of_nonneg hr.le, hunit]
    refine mul_le_mul_of_nonneg_right (Int.cast_le.mpr (nearest_mono ?_)) (unit_pos p r).le
    exact div_le_div_of_nonneg_right h (unit_pos p r).le
  · calc keep p q ≤ 10 ^ (Int.log 10 q + 1) := keep_le_zpow hq
      _ ≤ 10 ^ Int.log 10 r := zpow_le_zpow_right₀ (by norm_num) hlt
      _ ≤ keep p r := zpow_le_keep hp hr

theorem keep_mono (hp : 0 < p) : Monotone (keep p) := by
  have hnonneg : ∀ {q r : ℚ}, 0 ≤ q → q ≤ r → keep p q ≤ keep p r := by
    intro q r hq h
    rcases hq.eq_or_lt with rfl | hpos
    · rw [keep_zero]
      exact keep_nonneg h
    · exact keep_mono_of_pos hp hpos h
  intro q r h
  rcases le_total 0 q with hq | hq
  · exact hnonneg hq h
  · rcases le_total 0 r with hr | hr
    · refine le_trans ?_ (keep_nonneg hr)
      have := keep_nonneg (p := p) (neg_nonneg.mpr hq)
      rw [keep_neg] at this
      linarith
    · have := hnonneg (neg_nonneg.mpr hr) (neg_le_neg h)
      rw [keep_neg, keep_neg] at this
      linarith

/-- The context of `p` digits. -/
def context (p : ℕ) (hp : 0 < p) : Rounded.Context := ⟨keep p, keep_mono hp⟩

end ScalpingBot.HalfEven
