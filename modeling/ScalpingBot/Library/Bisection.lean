import Mathlib.Algebra.Order.Field.Rat
import Mathlib.Algebra.Order.Ring.Int
import Mathlib.Tactic.Common
import Mathlib.Tactic.Linarith
import Mathlib.Tactic.Ring

/-! Bisection with a test that may fail: over the integers to the end, and of an interval of numbers
    a fixed number of times. -/

namespace ScalpingBot

variable {ε : Type}

/-- Halve the interval until its ends are neighbours; the upper end is the answer. -/
def bisect (below : ℤ → Except ε Bool) (low high : ℤ) : Except ε ℤ :=
  if low + 1 < high then
    match below ((low + high) / 2) with
    | .ok true => bisect below ((low + high) / 2) high
    | .ok false => bisect below low ((low + high) / 2)
    | .error e => .error e
  else .ok high
termination_by (high - low).toNat
decreasing_by all_goals omega

/-- Where the test answers throughout and is monotone, with the lower end below the boundary and
    the upper end not, bisection returns the boundary. -/
theorem bisect_boundary {below : ℤ → Except ε Bool} {p : ℤ → Prop} {low high : ℤ}
    (htest : ∀ t, low < t → t < high →
      (below t = .ok true ∧ p t) ∨ (below t = .ok false ∧ ¬ p t))
    (hlt : low < high) (hlow : p low) (hhigh : ¬ p high) :
    ∃ t, bisect below low high = .ok t ∧ low < t ∧ t ≤ high ∧ p (t - 1) ∧ ¬ p t := by
  fun_induction bisect below low high with
  | case1 low high hgap hbelow ih =>
    rcases htest ((low + high) / 2) (by omega) (by omega) with ⟨-, hp⟩ | ⟨hfalse, -⟩
    · obtain ⟨t, ht, hlo, hhi, hspec⟩ :=
        ih (fun t hlo hhi => htest t (by omega) hhi) (by omega) hp hhigh
      exact ⟨t, ht, by omega, hhi, hspec⟩
    · simp [hbelow] at hfalse
  | case2 low high hgap hbelow ih =>
    rcases htest ((low + high) / 2) (by omega) (by omega) with ⟨htrue, -⟩ | ⟨-, hp⟩
    · simp [hbelow] at htrue
    · obtain ⟨t, ht, hlo, hhi, hspec⟩ :=
        ih (fun t hlo hhi => htest t hlo (by omega)) (by omega) hlow hp
      exact ⟨t, ht, hlo, by omega, hspec⟩
  | case3 low high hgap e hbelow =>
    rcases htest ((low + high) / 2) (by omega) (by omega) with ⟨h, -⟩ | ⟨h, -⟩ <;>
      simp [hbelow] at h
  | case4 low high hgap =>
    obtain rfl : high = low + 1 := by omega
    exact ⟨low + 1, rfl, by omega, le_rfl, by simpa using hlow, hhigh⟩

/-- Replace an end of an interval by its middle, a number of times: the upper end where the middle
    passes the test, otherwise the lower one. -/
def bisectTimes (middle : ℚ → ℚ → ℚ) (passes : ℚ → Except ε Bool) :
    ℕ → ℚ → ℚ → Except ε (ℚ × ℚ)
  | 0, low, high => .ok (low, high)
  | n + 1, low, high =>
    match passes (middle low high) with
    | .ok true => bisectTimes middle passes n low (middle low high)
    | .ok false => bisectTimes middle passes n (middle low high) high
    | .error e => .error e

/-- Where the test answers, the upper end keeps passing it and the lower one failing, and each time
    the interval is halved. -/
theorem bisectTimes_spec {passes : ℚ → Except ε Bool} {p : ℚ → Prop} {n : ℕ} {low high : ℚ}
    (htest : ∀ t, low ≤ t → t ≤ high → (passes t = .ok true ∧ p t) ∨ (passes t = .ok false ∧ ¬ p t))
    (hle : low ≤ high) (hlow : ¬ p low) (hhigh : p high) :
    ∃ low' high', bisectTimes (fun a b => (a + b) / 2) passes n low high = .ok (low', high') ∧
      low ≤ low' ∧ high' ≤ high ∧ ¬ p low' ∧ p high' ∧ high' - low' = (high - low) / 2 ^ n := by
  induction n generalizing low high with
  | zero => exact ⟨low, high, rfl, le_rfl, le_rfl, hlow, hhigh, by rw [pow_zero, div_one]⟩
  | succ n ih =>
    have hlo : low ≤ (low + high) / 2 := by linarith
    have hhi : (low + high) / 2 ≤ high := by linarith
    rcases htest ((low + high) / 2) hlo hhi with ⟨hpasses, hp⟩ | ⟨hpasses, hp⟩
    · obtain ⟨low', high', hrest, hlow', hhigh', hfails, hholds, hwidth⟩ :=
        ih (fun t ht ht' => htest t ht (ht'.trans hhi)) hlo hlow hp
      refine ⟨low', high', ?_, hlow', hhigh'.trans hhi, hfails, hholds, ?_⟩
      · simp only [bisectTimes, hpasses, hrest]
      · rw [hwidth, pow_succ]
        ring
    · obtain ⟨low', high', hrest, hlow', hhigh', hfails, hholds, hwidth⟩ :=
        ih (fun t ht ht' => htest t (hlo.trans ht) ht') hhi hp hhigh
      refine ⟨low', high', ?_, hlo.trans hlow', hhigh', hfails, hholds, ?_⟩
      · simp only [bisectTimes, hpasses, hrest]
      · rw [hwidth, pow_succ]
        ring

end ScalpingBot
