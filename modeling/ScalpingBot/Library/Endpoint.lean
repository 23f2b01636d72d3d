import Mathlib

/-! A concave function over an interval from a point where it is not negative: it is nowhere negative
    exactly if it is not negative at the other end. -/

namespace ScalpingBot

/-- The other end need not belong to the set. -/
theorem nonneg_iff_endpoint {g : ℚ → ℚ} {set : Set ℚ} {last : ℚ} (hlast : 0 ≤ last)
    (hconcave : ConcaveOn ℚ Set.univ g) (hcontinuous : Continuous g) (hzero : 0 ≤ g 0)
    (hlower : Set.Ico 0 last ⊆ set) (hupper : set ⊆ Set.Icc 0 last) :
    (∀ t ∈ set, 0 ≤ g t) ↔ 0 ≤ g last := by
  constructor
  · intro h
    rcases hlast.eq_or_lt with rfl | hpos
    · exact hzero
    · have hclosed : IsClosed {t | 0 ≤ g t} := isClosed_le continuous_const hcontinuous
      have hsubset : Set.Ico 0 last ⊆ {t | 0 ≤ g t} := fun t ht => h t (hlower ht)
      have hclosure := hclosed.closure_subset_iff.mpr hsubset
      rw [closure_Ico hpos.ne] at hclosure
      exact hclosure ⟨hlast, le_rfl⟩
  · intro h t ht
    have hbetween := hconcave.min_le_of_mem_Icc (Set.mem_univ 0) (Set.mem_univ last) (hupper ht)
    exact (le_min hzero h).trans hbetween

end ScalpingBot
