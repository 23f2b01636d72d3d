import Mathlib.Data.Option.Basic
import Mathlib.Logic.Function.Basic
import Mathlib.Tactic.Common

/-! Exclusive locks that a transaction keeps until it ends (strict two-phase locking): a table from
    resources to the transaction that holds them. -/

namespace ScalpingBot.Locks

variable {ρ : Type*} (locks : ρ → Option ℕ) (i : ℕ) (r : ρ)

/-- Whether `i` can take `r`: it is free or held by `i` already. -/
def free : Bool := locks r = none ∨ locks r = some i

/-- The end of transaction `i`. -/
def release : Option ℕ := if locks r = some i then none else locks r

variable {locks i r} {j : ℕ} {x : ρ}

/-- The end of one transaction leaves the locks of the others. -/
theorem release_of_held (hne : j ≠ i) (h : locks x = some j) : release locks i x = some j := by
  rw [release, if_neg, h]
  rw [h]
  exact fun hsame => hne (Option.some.inj hsame)

/-- A lock has one holder. -/
theorem holder_unique (h : locks x = some i) (h' : locks x = some j) : i = j :=
  Option.some.inj (h.symm.trans h')

variable [DecidableEq ρ]

def acquire (locks : ρ → Option ℕ) (i : ℕ) (r : ρ) : ρ → Option ℕ :=
  Function.update locks r (some i)

@[simp] theorem acquire_self : acquire locks i r r = some i := Function.update_self ..

/-- What a transaction holds, it holds after any lock is taken. -/
theorem acquire_of_held (hfree : free locks i r = true) (h : locks x = some j) :
    acquire locks i r x = some j := by
  by_cases hx : x = r
  · subst hx
    simp only [free, h, decide_eq_true_eq] at hfree
    rcases hfree with hfree | hfree
    · cases hfree
    · rw [acquire_self, hfree]
  · rw [acquire, Function.update_of_ne hx, h]

end ScalpingBot.Locks
