import ScalpingBot.Library.Checked

/-! Loops that check an element, change a state by it and go on to the next one. A loop that throws keeps
    what the elements before the offending one have changed. -/

namespace ScalpingBot.Interrupted

variable {σ ε α β : Type}

/-- The loop over the elements, with the state it leaves and how it ended. -/
def sweep (check : α → Except ε β) (change : σ → β → σ) (s : σ) : List α → σ × Except ε Unit
  | [] => (s, .ok ())
  | x :: xs =>
    match check x with
    | .error e => (s, .error e)
    | .ok b => sweep check change (change s b) xs

/-- What the elements before the first that fails have given. -/
def passed (check : α → Except ε β) : List α → List β
  | [] => []
  | x :: xs =>
    match check x with
    | .error _ => []
    | .ok b => b :: passed check xs

/-- Why the first element that fails does so. -/
def failure (check : α → Except ε β) : List α → Option ε
  | [] => none
  | x :: xs =>
    match check x with
    | .error e => some e
    | .ok _ => failure check xs

/-- How a loop ends whose first failure is this one. -/
def ending : Option ε → Except ε Unit
  | none => .ok ()
  | some e => .error e

@[simp] theorem ending_eq_error {o : Option ε} {e : ε} : ending o = .error e ↔ o = some e := by
  cases o <;> simp [ending]

@[simp] theorem ending_eq_ok {o : Option ε} {u : Unit} : ending o = .ok u ↔ o = none := by
  cases o <;> simp [ending]

variable {check : α → Except ε β} {change : σ → β → σ} {xs : List α}

/-- The state after the loop is what the elements before the failure made of it. -/
theorem sweep_eq (s : σ) : sweep check change s xs =
    ((passed check xs).foldl change s, ending (failure check xs)) := by
  induction xs generalizing s with
  | nil => rfl
  | cons x xs ih =>
    rw [sweep, passed, failure]
    cases check x with
    | error e => rfl
    | ok b => exact ih (change s b)

end ScalpingBot.Interrupted
