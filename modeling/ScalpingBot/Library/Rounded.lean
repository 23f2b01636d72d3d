import Mathlib.Algebra.Order.Ring.Rat
import Mathlib.Data.Rat.Defs
import Mathlib.Order.Monotone.Basic

/-! Arithmetic of decimals in a context: the exact result of each operation, and what the context keeps
    of it. The context is a parameter, `round`. -/

namespace ScalpingBot.Rounded

variable (round : ℚ → ℚ)

def add (a b : ℚ) : ℚ := round (a + b)
def sub (a b : ℚ) : ℚ := round (a - b)
def mul (a b : ℚ) : ℚ := round (a * b)
def div (a b : ℚ) : ℚ := round (a / b)

/-- The running sum from zero. -/
def sum (values : List ℚ) : ℚ := values.foldl (add round) 0

theorem sum_append_singleton (values : List ℚ) (value : ℚ) :
    sum round (values ++ [value]) = add round (sum round values) value := by
  rw [sum, List.foldl_append]
  rfl

/-- A context as contexts are: what it keeps of a larger number is no smaller. -/
structure Context where
  round : ℚ → ℚ
  monotone : Monotone round

end ScalpingBot.Rounded
