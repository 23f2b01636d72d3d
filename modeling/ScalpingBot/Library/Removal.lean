import Mathlib.Data.List.Perm.Basic
import Mathlib.Tactic.Common

/-! Loops over a copy of a list that remove elements from the list as they go. An element is still in the
    list when its turn comes. -/

namespace ScalpingBot.Removal

variable {σ α : Type*} [DecidableEq α] {view : σ → List α} {step : σ → α → σ}

/-- A step leaves the list as it is or removes its element. -/
def Removes (view : σ → List α) (step : σ → α → σ) : Prop :=
  ∀ s a, view (step s a) = view s ∨ view (step s a) = (view s).erase a

private theorem foldl_of_perm (hstep : Removes view step) {Q : σ → Prop}
    (hkeep : ∀ s a, a ∈ view s → Q s → Q (step s a)) {rest : List α} (kept : List α) {s : σ}
    (hperm : (view s).Perm (kept ++ rest)) (h : Q s) : Q (rest.foldl step s) := by
  induction rest generalizing kept s with
  | nil => exact h
  | cons a rest ih =>
    have hmem : a ∈ view s := hperm.mem_iff.mpr (by simp)
    have hmiddle : (view s).Perm (a :: (kept ++ rest)) := hperm.trans List.perm_middle
    rcases hstep s a with hsame | herase
    · refine ih (kept ++ [a]) ?_ (hkeep s a hmem h)
      rw [hsame]
      simpa using hperm
    · refine ih kept ?_ (hkeep s a hmem h)
      rw [herase]
      simpa using hmiddle.erase a

/-- What a step at an element of the list keeps, the loop keeps. -/
theorem foldl_keeps (hstep : Removes view step) {Q : σ → Prop}
    (hkeep : ∀ s a, a ∈ view s → Q s → Q (step s a)) {s : σ} (h : Q s) :
    Q ((view s).foldl step s) :=
  foldl_of_perm hstep hkeep [] (List.Perm.refl _) h

end ScalpingBot.Removal
